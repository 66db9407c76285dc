import GameBytecode.Machine

/-!
Programs of the host. A host program reads the machine as a whole and changes it only through the
requests listed here; a builtin is such a program. Executing a function is a request too, so that a
builtin can run the machine again.
-/
namespace GameBytecode

/-- The builtins that are registered: numbers, ascending, with names. -/
abbrev Roster := List (Nat × String)

inductive HostProgram where
  | done
  | fail (e : Fault)
  | inspect (k : Machine → Roster → HostProgram)
  | write (address : Int) (words : List Word) (k : Except Fault Unit → HostProgram)
  | makeString (bytes : Text.Bytes) (k : StringRef → HostProgram)
  | clearStrings (k : HostProgram)
  | setArgc (argc : Nat) (k : HostProgram)
  | setTracing (on : Bool) (k : HostProgram)
  | emit (line : String) (k : HostProgram)
  | reload (image : Text.Bytes) (k : Except LoadError Unit → HostProgram)
  | register (number : Nat) (name : String) (body k : HostProgram)
  | execute (function : Nat) (k : Except RuntimeFault Unit → HostProgram)
deriving Inhabited

/-- A builtin with its number and name. -/
structure Builtin where
  number : Nat
  name : String
  body : HostProgram

/-- A machine with the builtins it can call, their numbers ascending. -/
structure Session where
  machine : Machine
  builtins : List Builtin

namespace Session

def roster (s : Session) : Roster := s.builtins.map fun b => (b.number, b.name)

def builtin? (s : Session) (number : Nat) : Option HostProgram :=
  (s.builtins.find? (·.number = number)).map (·.body)

/-- Registers a builtin in place of an earlier one of its number. -/
def register (s : Session) (b : Builtin) : Session :=
  let before := s.builtins.filter (·.number < b.number)
  let after := s.builtins.filter (b.number < ·.number)
  { s with builtins := before ++ b :: after }

def onMachine (f : Machine → Machine) (s : Session) : Session := { s with machine := f s.machine }

end Session

/-- How a computation with a bound on its work ends. -/
inductive Ending (ε : Type) where
  | finished
  | failed (e : ε)
  /-- The bound was too small to tell. -/
  | exhausted
deriving DecidableEq, Repr

namespace HostProgram

/-- Performs a program on a session, given what executing a function does. A fatal fault ends the
program as well. -/
def perform (execute : Nat → Session → Ending RuntimeFault × Session) :
    HostProgram → Session → Ending Fault × Session
  | done, s => (.finished, s)
  | fail e, s => (.failed e, s)
  | inspect k, s => (k s.machine s.roster).perform execute s
  | write address words k, s =>
    let (result, machine) := s.machine.act (Action.put address words)
    (k result).perform execute { s with machine }
  | makeString bytes k, s =>
    let (r, strings) := s.machine.store.strings.push bytes
    (k r).perform execute (s.onMachine ({ · with store.strings := strings }))
  | clearStrings k, s =>
    k.perform execute (s.onMachine fun v => { v with store.strings := v.store.strings.clear })
  | setArgc argc k, s => k.perform execute (s.onMachine ({ · with argc }))
  | setTracing on k, s => k.perform execute (s.onMachine ({ · with tracing := on }))
  | emit line k, s =>
    k.perform execute (s.onMachine fun v => { v with console := v.console.push line })
  | reload image k, s =>
    match s.machine.reload image with
    | .ok machine => (k (.ok ())).perform execute { s with machine }
    | .error e => (k (.error e)).perform execute s
  | register number name body k, s => k.perform execute (s.register ⟨number, name, body⟩)
  | .execute function k, s =>
    match execute function s with
    | (.finished, s) => (k (.ok ())).perform execute s
    | (.failed e, s) =>
      if e.kind.isFatal then (.failed e.kind, s) else (k (.error e)).perform execute s
    | (.exhausted, s) => (.exhausted, s)

end HostProgram
end GameBytecode
