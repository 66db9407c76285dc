import GameBytecode.Fault
import GameBytecode.Text.Utf8

/-!
Strings by reference. A reference at or above 0 is a byte offset into the text of the module, where
strings end at a zero byte; one below 0 names a transient string made while running.

A transient string made during a run lasts until the next outermost run begins, and one made
between runs lasts one run longer. Slots of strings that have ended are used again, the last
released first.
-/
namespace GameBytecode
open Text (Bytes)

/-- Reference to a string. -/
abbrev StringRef := Int32

/-- The bytes from an index up to the first zero byte or the end. -/
def stringFrom (table : Array UInt8) (i : Nat) : Bytes :=
  if h : i < table.size then
    if table[i] = 0 then [] else table[i] :: stringFrom table (i + 1)
  else []
termination_by table.size - i

/-- The bytes of a module string; an offset at the very end names an empty string. -/
def moduleString? (table : Array UInt8) (r : StringRef) : Option Bytes :=
  if r < 0 ∨ table.size < r.toInt.toNat then none else some (stringFrom table r.toInt.toNat)

structure Transient where
  bytes : Bytes
  /-- The epoch in which the string was made. -/
  epoch : Nat
deriving DecidableEq, Repr

structure StringArena where
  table : Array UInt8
  slots : Array (Option Transient)
  /-- Slots free for use, the next one first. -/
  free : List Nat
  /-- Advances when an outermost run begins and again when it ends. -/
  epoch : Nat
  /-- Runs in progress. -/
  runs : Nat
deriving DecidableEq, Repr

namespace StringArena

def ofTable (table : Array UInt8) : StringArena := ⟨table, #[], [], 0, 0⟩

/-- Ends the strings of earlier epochs. -/
def release (a : StringArena) (keepFrom : Nat) : StringArena :=
  let ended (t : Option Transient) : Bool := t.any (·.epoch < keepFrom)
  let released := (List.range a.slots.size).filter fun i => ended (a.slots.getD i none)
  { a with
    slots := a.slots.map fun t => if ended t then none else t
    free := released.reverse ++ a.free }

def beginRun (a : StringArena) : StringArena :=
  let a := { a with runs := a.runs + 1 }
  if 1 < a.runs then a else { a with epoch := a.epoch + 1 }.release a.epoch

def endRun (a : StringArena) : StringArena :=
  let a := { a with runs := a.runs - 1 }
  if a.runs = 0 then { a with epoch := a.epoch + 1 } else a

/-- The slot of a transient reference. -/
def slotOf (r : StringRef) : Nat := (-r.toInt - 1).toNat

/-- The reference to a slot. From slot 2^31 on it wraps around. -/
def refOf (slot : Nat) : StringRef := -(Int32.ofNat slot) - 1

def get (a : StringArena) (r : StringRef) : Except Fault Bytes :=
  let found :=
    if r < 0 then (a.slots.getD (slotOf r) none).map (·.bytes) else moduleString? a.table r
  match found with
  | some bytes => .ok bytes
  | none => .error (.invalidString r.toInt)

def getText (a : StringArena) (r : StringRef) : Except Fault String :=
  (a.get r).map Text.ofUtf8

/-- Makes a transient string. -/
def push (a : StringArena) (bytes : Bytes) : StringRef × StringArena :=
  let t := some ⟨bytes, a.epoch⟩
  match a.free with
  | slot :: free => (refOf slot, { a with slots := a.slots.setIfInBounds slot t, free })
  | [] => (refOf a.slots.size, { a with slots := a.slots.push t })

def concat (a : StringArena) (r s : StringRef) : Except Fault (StringRef × StringArena) :=
  match a.get r, a.get s with
  | .error e, _ => .error e
  | .ok _, .error e => .error e
  | .ok x, .ok y => .ok (a.push (x ++ y))

/-- The order of two byte strings, by the first byte in which they differ. -/
def compareBytes : Bytes → Bytes → Ordering
  | [], [] => .eq
  | [], _ :: _ => .lt
  | _ :: _, [] => .gt
  | x :: xs, y :: ys => if x < y then .lt else if y < x then .gt else compareBytes xs ys

def compare (a : StringArena) (r s : StringRef) : Except Fault Ordering :=
  match a.get r, a.get s with
  | .error e, _ => .error e
  | .ok _, .error e => .error e
  | .ok x, .ok y => .ok (compareBytes x y)

/-- Whether a string is empty; reference 0 always is. -/
def isEmpty (a : StringArena) (r : StringRef) : Except Fault Bool :=
  if r = 0 then .ok true else (a.get r).map (·.isEmpty)

def clear (a : StringArena) : StringArena := { a with slots := #[], free := [] }

/-- Number of transient strings that can be read. -/
def count (a : StringArena) : Nat := a.slots.size - a.free.length

end StringArena
end GameBytecode
