import GameBytecode.Record
import GameBytecode.Store
import GameBytecode.Value

/-!
What a statement does to the store, spelled out access by access. An access says where its address
comes from: an operand, a global that the module is bound to, or something found in memory.
-/
namespace GameBytecode

/-- Where the address of an access comes from. -/
inductive Place where
  | operand (slot : Opcode.Slot)
  | bound (address : Nat)
  /-- A pointer, or the place of a field in an entity. -/
  | found (address : Int)
deriving DecidableEq, Repr

namespace Place

abbrev a : Place := operand .a
abbrev b : Place := operand .b
abbrev c : Place := operand .c

def address (s : Statement) : Place → Int
  | operand slot => (s.slot slot).toNat
  | bound address => address
  | found address => address

end Place

/-- The accesses of a statement in order, with what follows on the answer to each. -/
inductive Plan (α : Type) where
  | done (a : α)
  | fail (e : Fault)
  | read (place : Place) (count : Nat) (k : List Word → Plan α)
  | write (place : Place) (words : List Word) (k : Plan α)
  /-- Reads from the strings. -/
  | observe (f : StringArena → Except Fault Bool) (k : Bool → Plan α)
  | concat (r s : StringRef) (k : StringRef → Plan α)

namespace Plan
variable {α β : Type}

def bind : Plan α → (α → Plan β) → Plan β
  | done a, f => f a
  | fail e, _ => fail e
  | read place count k, f => read place count fun ws => (k ws).bind f
  | write place words k, f => write place words (k.bind f)
  | observe g k, f => observe g fun answer => (k answer).bind f
  | concat r s k, f => concat r s fun joined => (k joined).bind f

instance : Monad Plan where
  pure := done
  bind := bind

def ofExcept : Except Fault α → Plan α
  | .ok a => done a
  | .error e => fail e

instance : MonadLift (Except Fault) Plan := ⟨ofExcept⟩

/-- Carries a plan out for a statement. -/
def run (s : Statement) : Plan α → Store → Except Fault α × Store
  | done a, st => (.ok a, st)
  | fail e, st => (.error e, st)
  | read place count k, st =>
    match st.memory.slice (place.address s) count with
    | .error e => (.error e, st)
    | .ok ws => (k ws).run s st
  | write place words k, ⟨memory, strings⟩ =>
    match memory.resolve (place.address s) words.length with
    | .error e => (.error e, ⟨memory, strings⟩)
    | .ok i => k.run s ⟨⟨Memory.setWords memory.words i words⟩, strings⟩
  | observe f k, st =>
    match f st.strings with
    | .error e => (.error e, st)
    | .ok answer => (k answer).run s st
  | concat r t k, ⟨memory, strings⟩ =>
    match strings.concat r t with
    | .error e => (.error e, ⟨memory, strings⟩)
    | .ok (joined, strings) => (k joined).run s ⟨memory, strings⟩

@[simp] def word (place : Place) : Plan Word := read place 1 fun ws => done (ws.headD 0)

@[simp] def integer (place : Place) : Plan Int := return Word.toSigned (← word place)

@[simp] def reference (place : Place) : Plan StringRef := return (← word place).toInt32

@[simp] def vector (place : Place) : Plan Vector3 :=
  read place 3 fun ws => done ⟨ws.getD 0 0, ws.getD 1 0, ws.getD 2 0⟩

@[simp] def put (place : Place) (words : List Word) : Plan Unit := write place words (done ())

@[simp] def putWord (place : Place) (w : Word) : Plan Unit := put place [w]

@[simp] def putFlag (place : Place) (flag : Bool) : Plan Unit := putWord place (if flag then 1 else 0)

@[simp] def putVector (place : Place) (v : Vector3) : Plan Unit := put place v.toList

@[simp] def copy (source target : Place) (count : Nat) : Plan Unit :=
  read source count fun ws => put target ws

@[simp] def test (f : StringArena → Except Fault Bool) : Plan Bool := observe f done

@[simp] def join (r s : StringRef) : Plan StringRef := concat r s done

end Plan
end GameBytecode
