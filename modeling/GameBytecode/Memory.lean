import GameBytecode.Binary.Single
import GameBytecode.Fault

/-!
The flat array of words that a program runs on. Every access names a signed address and fails
unless all its words are inside the array.
-/
namespace GameBytecode

structure Memory where
  words : Array Word
deriving DecidableEq, Repr

namespace Memory

/-- Replaces the words from an index on; what would fall outside is dropped. -/
def setWords (words : Array Word) (index : Nat) : List Word → Array Word
  | [] => words
  | w :: rest => setWords (words.setIfInBounds index w) (index + 1) rest

/-- An array of zeros, refused when it could not be addressed. -/
def allocate (words : Nat) : Except LoadError Memory :=
  if 0x4000000000000000 ≤ words then .error (.allocation words) else .ok ⟨Array.replicate words 0⟩

def size (m : Memory) : Nat := m.words.size

/-- The index of the first of count words at an address. -/
def resolve (m : Memory) (address : Int) (count : Nat) : Except Fault Nat :=
  if address < 0 ∨ m.size < address.toNat + count then .error (.invalidGlobal address)
  else .ok address.toNat

def read (m : Memory) (address : Int) : Except Fault Word :=
  (m.resolve address 1).map (m.words.getD · 0)

def slice (m : Memory) (address : Int) (count : Nat) : Except Fault (List Word) :=
  (m.resolve address count).map fun i => (m.words.extract i (i + count)).toList

def write (m : Memory) (address : Int) (w : Word) : Except Fault Memory :=
  match m.resolve address 1 with
  | .error e => .error e
  | .ok i => .ok ⟨m.words.setIfInBounds i w⟩

def writeSlice (m : Memory) (address : Int) (ws : List Word) : Except Fault Memory :=
  match m.resolve address ws.length with
  | .error e => .error e
  | .ok i => .ok ⟨setWords m.words i ws⟩

/-- Copies count words; the two ranges may overlap. -/
def copy (m : Memory) (source target : Int) (count : Nat) : Except Fault Memory :=
  match m.slice source count with
  | .error e => .error e
  | .ok ws => m.writeSlice target ws

def fill (m : Memory) (address : Int) (count : Nat) (w : Word) : Except Fault Memory :=
  match m.resolve address count with
  | .error e => .error e
  | .ok _ => m.writeSlice address (List.replicate count w)

end Memory
end GameBytecode
