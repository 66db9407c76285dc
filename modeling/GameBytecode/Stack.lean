import GameBytecode.Memory

/-!
The two bounded stacks of a run: where to return to, and the words of functions entered again.
-/
namespace GameBytecode

/-- Where a caller stands; function 0 is the host. -/
structure Frame where
  statement : Nat
  function : Nat
deriving DecidableEq, Repr

structure CallStack where
  /-- The innermost frame first. -/
  frames : List Frame
  limit : Nat
  /-- The number of frames, so that it need not be counted at each call. -/
  depth : Nat
  depth_eq : depth = frames.length
deriving DecidableEq, Repr

namespace CallStack

def empty (limit : Nat) : CallStack := ⟨[], limit, 0, rfl⟩

def hasRoom (s : CallStack) : Bool := s.depth < s.limit

/-- The stack with a frame on top, whether there is room for it or not. -/
def add (s : CallStack) (f : Frame) : CallStack :=
  ⟨f :: s.frames, s.limit, s.depth + 1, by simp [s.depth_eq]⟩

def push (s : CallStack) (f : Frame) : Except Fault CallStack :=
  if s.hasRoom then .ok (s.add f) else .error (.stackOverflow s.limit)

def pop (s : CallStack) : Except Fault (Frame × CallStack) :=
  match s.frames with
  | [] => .error .stackUnderflow
  | f :: _ => .ok (f, ⟨s.frames.tail, s.limit, s.depth - 1, by simp [s.depth_eq]⟩)

def clear (s : CallStack) : CallStack := empty s.limit

end CallStack

structure SavedLocals where
  words : Array Word
  capacity : Nat
deriving DecidableEq, Repr

namespace SavedLocals

def empty (capacity : Nat) : SavedLocals := ⟨#[], capacity⟩

def used (s : SavedLocals) : Nat := s.words.size

def hasRoom (s : SavedLocals) (count : Nat) : Bool := s.used + count ≤ s.capacity

def overflow (s : SavedLocals) (needed : Nat) : Fault :=
  .localsOverflow needed (s.capacity - s.used)

/-- Saves words of memory on top. -/
def save (s : SavedLocals) (m : Memory) (start : Int) (count : Nat) : Except Fault SavedLocals :=
  if s.hasRoom count then
    match m.slice start count with
    | .error e => .error e
    | .ok ws => .ok { s with words := s.words ++ ws.toArray }
  else .error (s.overflow count)

/-- The words saved last. -/
def top? (s : SavedLocals) (count : Nat) : Except Fault (List Word) :=
  if s.used < count then .error .localsUnderflow
  else .ok (s.words.extract (s.used - count) s.used).toList

def drop (s : SavedLocals) (count : Nat) : SavedLocals :=
  { s with words := s.words.shrink (s.used - count) }

/-- Takes the last saved words off and puts them back into memory. -/
def restore (s : SavedLocals) (m : Memory) (start : Int) (count : Nat) :
    Except Fault (Memory × SavedLocals) := do
  let m ← m.writeSlice start (← s.top? count)
  return (m, s.drop count)

def clear (s : SavedLocals) : SavedLocals := { s with words := #[] }

end SavedLocals
end GameBytecode
