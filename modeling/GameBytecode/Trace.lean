/-!
The most recent lines of a trace. The buffer is a queue in two lists, of which the second holds the
newer lines, newest first.
-/
namespace GameBytecode

structure TraceBuffer where
  capacity : Nat
  older : List String
  newer : List String
  size : Nat
deriving DecidableEq, Repr

namespace TraceBuffer

def empty (capacity : Nat) : TraceBuffer := ⟨capacity, [], [], 0⟩

/-- The lines from the oldest on. -/
def toList (b : TraceBuffer) : List String := b.older ++ b.newer.reverse

private def dropOldest (b : TraceBuffer) : TraceBuffer :=
  match b.older with
  | _ :: older => { b with older, size := b.size - 1 }
  | [] => { b with older := b.newer.reverse.tail, newer := [], size := b.size - 1 }

/-- Adds a line; a full buffer loses its oldest one. -/
def push (b : TraceBuffer) (line : String) : TraceBuffer :=
  if b.capacity = 0 then b
  else
    let b := if b.size = b.capacity then b.dropOldest else b
    { b with newer := line :: b.newer, size := b.size + 1 }

def clear (b : TraceBuffer) : TraceBuffer := empty b.capacity

/-- Lines kept by the buffer of a machine. -/
def defaultCapacity : Nat := 1024

end TraceBuffer
end GameBytecode
