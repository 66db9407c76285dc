import GameBytecode.Module

/-!
Reports of how many statements each function executed.
-/
namespace GameBytecode.Profile

structure Entry where
  function : String
  file : String
  statements : Nat
deriving DecidableEq, Repr

/-- The functions that executed most, those with equal counts in the order of their numbers. -/
def report (m : Module) (counts : Array Nat) (top : Nat) : List Entry :=
  let ranked := counts.toList.zipIdx.filter fun (count, _) => 0 < count
  let sorted := ranked.mergeSort fun x y => y.1 ≤ x.1
  (sorted.take top).map fun (count, number) =>
    ⟨m.functionName number, m.functionFile number, count⟩

end GameBytecode.Profile
