import GameBytecode.Host
import GameBytecode.Machine.Access

/-!
Writing host programs: requests in sequence, each with an answer or a fault.
-/
namespace GameBytecode

/-- A part of a host program, which ends by giving an answer to the rest. -/
def HostM (α : Type) : Type := (α → HostProgram) → HostProgram

namespace HostM

instance : Monad HostM where
  pure a := fun k => k a
  bind x f := fun k => x fun a => f a k

def view : HostM (Machine × Roster) := fun k => .inspect fun v roster => k (v, roster)

def machine : HostM Machine := fun k => .inspect fun v _ => k v

def emit (line : String) : HostM Unit := fun k => .emit line (k ())

def clearStrings : HostM Unit := fun k => .clearStrings (k ())

def setArgc (argc : Nat) : HostM Unit := fun k => .setArgc argc (k ())

def setTracing (on : Bool) : HostM Unit := fun k => .setTracing on (k ())

def makeString (bytes : Text.Bytes) : HostM StringRef := fun k => .makeString bytes k

def register (number : Nat) (name : String) (body : HostProgram) : HostM Unit :=
  fun k => .register number name body (k ())

def execute (function : Nat) : HostM (Except RuntimeFault Unit) := fun k => .execute function k

def reload (image : Text.Bytes) : HostM (Except LoadError Unit) := fun k => .reload image k

def write (address : Int) (words : List Word) : HostM (Except Fault Unit) :=
  fun k => .write address words k

/-- A request that can fail. -/
abbrev Request (α : Type) := ExceptT Fault HostM α

/-- Ends a program with the outcome of its last request. -/
def toProgram (r : Request Unit) : HostProgram :=
  r fun
    | .ok () => .done
    | .error e => .fail e

namespace Request

/-- A look at the machine. -/
def look {α : Type} (f : Machine → Except Fault α) : Request α := do
  ExceptT.mk (return f (← machine))

def put (address : Int) (words : List Word) : Request Unit := ExceptT.mk (write address words)

def paramFloat (n : Nat) : Request Word := look (·.paramWord n)
def paramString (n : Nat) : Request String := look (·.paramString n)
def paramVector (n : Nat) : Request Vector3 := look (·.paramVector n)

def returnWord (w : Word) : Request Unit := put Address.result [w]

def returnVector (v : Vector3) : Request Unit := put Address.result v.toList

/-- Returns a new transient string. -/
def returnString (bytes : Text.Bytes) : Request StringRef := do
  let r ← makeString bytes
  returnWord r.toUInt32
  return r

def setGlobal (name : String) (value : Value) : Request Unit := do
  let (address, words) ← look (·.globalTarget name value)
  put address words

def setField (entity : Nat) (name : String) (value : Value) : Request Unit := do
  let (address, words) ← look (·.fieldTarget entity name value)
  put address words

end Request
end HostM
end GameBytecode
