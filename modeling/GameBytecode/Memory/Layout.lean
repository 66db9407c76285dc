import GameBytecode.Fault

/-!
Placement of globals, entity records and heap in one array of words. Each region starts at an even
word, in this order.
-/
namespace GameBytecode

namespace Address

/-- The word that reads as zero. -/
def null : Nat := 0

/-- The first of the three words of a returned value. -/
def result : Nat := 1

/-- Words reserved for each argument. -/
def argumentWords : Nat := 3

/-- The first word of an argument. -/
def argument (n : Nat) : Nat := 4 + n * argumentWords

/-- The first address free for use by a module. -/
def reserved : Nat := 28

end Address

structure Layout where
  globals : Nat
  entityBase : Nat
  /-- Words from one entity record to the next. -/
  stride : Nat
  capacity : Nat
  /-- Words of an entity record in use. -/
  fields : Nat
  heapBase : Nat
  heapWords : Nat
  total : Nat
deriving DecidableEq, Repr

namespace Layout

/-- The next even number; counts are kept in 64 bits. -/
def alignUp (words : Nat) : Nat := (words + 1) % 0x10000000000000000 / 2 * 2

/-- The most words an array can have, so that every address is a positive signed word. -/
def maxWords : Nat := 0x7fffffff

/-- The layout for a number of globals, fields of an entity, entities and bytes of heap. -/
def make (globals fields capacity heapBytes : Nat) : Except LoadError Layout :=
  let entityBase := alignUp globals
  let stride := alignUp fields
  let heapWords := alignUp ((heapBytes + 3) / 4)
  let heapBase := entityBase + stride * capacity
  let total := heapBase + heapWords
  if maxWords < total then .error .layoutOverflow
  else .ok { globals, entityBase, stride, capacity, fields, heapBase, heapWords, total }

/-- The word of a field of an entity, whether or not they exist. -/
def fieldWord (l : Layout) (entity field : Int) : Int :=
  l.entityBase + entity * l.stride + field

/-- A number that a signed word of 64 bits holds. -/
def Holds (n : Int) : Prop := -0x8000000000000000 ≤ n ∧ n < 0x8000000000000000

instance (n : Int) : Decidable (Holds n) := inferInstanceAs (Decidable (_ ∧ _))

/-- The result of an operation with 64 bits, which have to hold it. -/
def checked (operation : String) (n : Int) : Except Fault Int :=
  if Holds n then .ok n else .error (.overflow operation)

/-- The address of that word, computed step by step. The size of a record is read as a signed number. -/
def fieldAddress (l : Layout) (entity field : Int) : Except Fault Int := do
  let before ← checked "multiply" (entity * (l.stride : Int).bmod 0x10000000000000000)
  let record ← checked "add" (l.entityBase + before)
  checked "add" (record + field)

def hasEntity (l : Layout) (entity : Int) : Bool := 0 ≤ entity && entity < l.capacity

/-- Whether a number of words from a field on lie inside an entity record. -/
def hasField (l : Layout) (field : Int) (width : Nat) : Bool :=
  0 ≤ field && field + width ≤ l.fields

def text (l : Layout) : String :=
  let range (a b : Nat) := Nat.repr a ++ ".." ++ Nat.repr b
  "globals " ++ range 0 l.globals ++ " | entities " ++ range l.entityBase l.heapBase ++ " (" ++
    Nat.repr l.capacity ++ " x " ++ Nat.repr l.stride ++ " words) | heap " ++
    range l.heapBase l.total

end Layout
end GameBytecode
