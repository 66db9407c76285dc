import GameBytecode.Json.Decode
import GameBytecode.Json.Reader
import GameBytecode.Settings
import GameBytecode.Text.Count

/-!
Settings as JSON.
-/
namespace GameBytecode.Settings

def keys : List String :=
  ["bounds_check", "fault_checks", "no_exec_limit", "null_bad", "deadbeef_locals",
    "max_stack_depth", "locals_stack_size", "runaway_budget"]

private def count? : Json → Option Nat := Json.natural? Text.countLimit

/-- Settings that are not mentioned keep their defaults. -/
def ofJson? (j : Json) : Option Settings := do
  let members ← j.record? keys
  let default : Settings := {}
  return {
    boundsCheck := ← Json.memberD members "bounds_check" Json.bool? default.boundsCheck
    faultChecks := ← Json.memberD members "fault_checks" Json.bool? default.faultChecks
    noExecLimit := ← Json.memberD members "no_exec_limit" Json.bool? default.noExecLimit
    nullBad := ← Json.memberD members "null_bad" Json.bool? default.nullBad
    deadbeefLocals := ← Json.memberD members "deadbeef_locals" Json.bool? default.deadbeefLocals
    maxStackDepth := ← Json.memberD members "max_stack_depth" count? default.maxStackDepth
    localsStackSize := ← Json.memberD members "locals_stack_size" count? default.localsStackSize
    runawayBudget := ← Json.memberD members "runaway_budget" count? default.runawayBudget }

def parse? (text : String) : Option Settings := (Json.parse? text).bind ofJson?

def toJson (s : Settings) : Json :=
  .object [("bounds_check", .bool s.boundsCheck), ("fault_checks", .bool s.faultChecks),
    ("no_exec_limit", .bool s.noExecLimit), ("null_bad", .bool s.nullBad),
    ("deadbeef_locals", .bool s.deadbeefLocals), ("max_stack_depth", .integer s.maxStackDepth),
    ("locals_stack_size", .integer s.localsStackSize), ("runaway_budget", .integer s.runawayBudget)]

end GameBytecode.Settings
