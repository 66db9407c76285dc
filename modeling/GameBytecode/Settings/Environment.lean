import GameBytecode.Settings
import GameBytecode.Text.Blank
import GameBytecode.Text.Count

/-!
Settings from environment variables. A value that cannot be read leaves its setting alone.
-/
namespace GameBytecode.Settings

private def lower (s : String) : String :=
  String.ofList (s.toList.map fun c => if 'A' ≤ c ∧ c ≤ 'Z' then Char.ofNat (c.toNat + 32) else c)

def flag? (value : String) : Option Bool :=
  let word := lower (Text.trim value)
  if word ∈ ["1", "true", "yes", "on"] then some true
  else if word ∈ ["0", "false", "no", "off"] then some false
  else none

def number? (value : String) : Option Nat := Text.count? (Text.trim value)

/-- The names of the variables. -/
def variableNames : List String :=
  ["PR_BOUNDSCHECK", "PR_FAULTCHECKS", "PR_NO_EXEC_LIMIT", "PR_NULL_BAD", "PR_DEADBEEF_LOCALS",
    "PR_MAX_STACK_DEPTH", "PR_LOCALSTACK_SIZE", "PR_RUNAWAY_BUDGET"]

/-- The defaults with what the variables say in their place. -/
def ofEnvironment (read : String → Option String) : Settings :=
  let default : Settings := {}
  let flag (name : String) (d : Bool) := ((read name).bind flag?).getD d
  let number (name : String) (d : Nat) := ((read name).bind number?).getD d
  { boundsCheck := flag "PR_BOUNDSCHECK" default.boundsCheck
    faultChecks := flag "PR_FAULTCHECKS" default.faultChecks
    noExecLimit := flag "PR_NO_EXEC_LIMIT" default.noExecLimit
    nullBad := flag "PR_NULL_BAD" default.nullBad
    deadbeefLocals := flag "PR_DEADBEEF_LOCALS" default.deadbeefLocals
    maxStackDepth := number "PR_MAX_STACK_DEPTH" default.maxStackDepth
    localsStackSize := number "PR_LOCALSTACK_SIZE" default.localsStackSize
    runawayBudget := number "PR_RUNAWAY_BUDGET" default.runawayBudget }

end GameBytecode.Settings
