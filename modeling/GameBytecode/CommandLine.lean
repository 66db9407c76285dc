/-!
The commands of the tool: what can be asked of it.
-/
namespace GameBytecode.CommandLine

/-- What can be said of any command. -/
structure Options where
  verbose : Bool := false
  /-- Events and reports in JSON. -/
  json : Bool := false
  /-- A file that events are also added to. -/
  logFile : Option String := none
deriving DecidableEq, Repr, Inhabited

/-- What a module is loaded for: entity records and bytes of heap. -/
structure Sizes where
  entities : Nat := 16
  heapBytes : Nat := 0
deriving DecidableEq, Repr, Inhabited

/-- How a function is to be run. -/
structure RunPlan where
  function : String := "main"
  sizes : Sizes := {}
  boundsCheck : Bool := false
  faultChecks : Bool := false
  noExecLimit : Bool := false
  /-- Show the statements that were executed. -/
  trace : Bool := false
  /-- Show the functions that executed most. -/
  profile : Bool := false
  /-- A file of settings, which replaces those of the environment. -/
  config : Option String := none
deriving DecidableEq, Repr, Inhabited

inductive Command where
  | info (path : String) (sizes : Sizes)
  | check (path : String)
  | disassemble (path : String) (function : Option String)
  | run (path : String) (plan : RunPlan)
  | assemble (source output : String)
deriving DecidableEq, Repr

end GameBytecode.CommandLine
