/-!
Settings of a machine: its checks and its limits.
-/
namespace GameBytecode

structure Settings where
  /-- Check a module on loading, and entities, fields and jumps while running. -/
  boundsCheck : Bool := false
  /-- Give division by zero a value instead of failing. -/
  faultChecks : Bool := false
  /-- Run without a limit on statements. -/
  noExecLimit : Bool := false
  /-- With bounds checks, refuse addresses of fields of entity 0. -/
  nullBad : Bool := true
  /-- Overwrite the locals of a function that is entered. -/
  deadbeefLocals : Bool := false
  maxStackDepth : Nat := 64
  /-- Words of locals that can be saved. -/
  localsStackSize : Nat := 4096
  /-- Statements that one execution may run. -/
  runawayBudget : Nat := 1000000
deriving DecidableEq, Repr, Inhabited

end GameBytecode
