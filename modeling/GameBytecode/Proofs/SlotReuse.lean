import GameBytecode.Proofs.StatementFrame
import Mathlib.Data.Finset.Lattice.Fold
import Mathlib.Data.Set.Card
import Mathlib.Order.Lattice.Nat

/-!
How slots are used again, whether or not runs are nested. A slot that was given out and whose string has
ended is free, once; no string that can be read is touched by a new one; and slots are added only when
none is free, so that no more of them are ever given out than strings could be read at one time.
-/
namespace GameBytecode
open Text (Bytes)

namespace StringArena

/-- The reference is that of a transient string, and the string can be read. -/
def Readable (a : StringArena) (r : StringRef) : Prop := r < 0 ∧ ∃ bytes, a.get r = .ok bytes

/-- An operation has returned the reference since the strings were last cleared. -/
def Returned (table : Array UInt8) (ops : List Operation) (r : StringRef) : Prop :=
  ∃ before op later bytes, ops = before ++ op :: later ∧ .clear ∉ later ∧
    (ran table before).answer? op = some (r, bytes)

section slots
variable {a : StringArena} {i : Nat} {r : StringRef} {bytes : Bytes}

theorem readable_refOf (low : i < 0x80000000) : a.Readable (refOf i) ↔ ∃ t, a.Filled i t := by
  constructor
  · rintro ⟨-, bytes, read⟩
    by_contra empty
    rw [get_eq_error (not_exists.mp empty) low] at read
    cases read
  · rintro ⟨t, filled⟩
    exact ⟨refOf_neg low, t.bytes, filled.get_eq low⟩

theorem InOrder.lt_size_push (h : a.InOrder) (bytes : Bytes) (i : Nat) :
    i < (a.push bytes).2.slots.size ↔ i = a.nextSlot ∨ i < a.slots.size := by
  cases hf : a.free with
  | nil =>
    rw [push_of_nil hf, nextSlot_of_nil hf]
    simp only [Array.size_push]
    omega
  | cons slot free =>
    have inside := h.head_lt hf
    rw [push_of_cons hf, nextSlot_of_cons hf]
    simp only [Array.size_setIfInBounds]
    omega

theorem count_push_of_nil (hf : a.free = []) (bytes : Bytes) :
    (a.push bytes).2.count = (a.push bytes).2.slots.size := by
  rw [push_of_nil hf]
  simp only [count, hf, List.length_nil, Nat.sub_zero]

theorem size_push_of_cons {slot : Nat} {free : List Nat} (hf : a.free = slot :: free) (bytes : Bytes) :
    (a.push bytes).2.slots.size = a.slots.size := by
  rw [push_of_cons hf, Array.size_setIfInBounds]

end slots

section history
variable {table : Array UInt8} {ops before later : List Operation} {op : Operation} {r : StringRef}

/-- After one more operation a reference has been returned if that operation has just done so, or if it
had been returned and the strings were not cleared. -/
theorem returned_snoc : Returned table (ops ++ [op]) r ↔
    (∃ bytes, (ran table ops).answer? op = some (r, bytes)) ∨ op ≠ .clear ∧ Returned table ops r := by
  constructor
  · rintro ⟨before, op', later, bytes, split, kept, answer⟩
    rcases snoc_eq_iff.mp split with ⟨rfl, rfl, rfl⟩ | ⟨rest, rfl, rfl⟩
    · exact .inl ⟨bytes, answer⟩
    · rw [List.mem_append, List.mem_singleton, not_or] at kept
      exact .inr ⟨Ne.symm kept.2, before, op', rest, bytes, rfl, kept.1, answer⟩
  · rintro (⟨bytes, answer⟩ | ⟨other, before, op', later, bytes, rfl, kept, answer⟩)
    · exact ⟨ops, op, [], bytes, rfl, List.not_mem_nil, answer⟩
    · refine ⟨before, op', later ++ [op], bytes, by simp, ?_, answer⟩
      rw [List.mem_append, List.mem_singleton, not_or]
      exact ⟨kept, Ne.symm other⟩

/-- The slots are those given out since the strings were last cleared, and at some time since then all
of them held strings. -/
structure GivenOut (table : Array UInt8) (ops : List Operation) : Prop where
  size : (ran table ops).slots.size ≤ ops.length
  returned : ∀ r, Returned table ops r ↔ ∃ i < (ran table ops).slots.size, r = refOf i
  full : ∃ before later, ops = before ++ later ∧ .clear ∉ later ∧
    (ran table before).count = (ran table ops).slots.size

theorem GivenOut.size_snoc (h : GivenOut table ops) (op : Operation) :
    (ran table (ops ++ [op])).slots.size ≤ (ops ++ [op]).length := by
  rw [ran_snoc, List.length_append]
  exact Nat.le_trans (size_apply_le _ op) (Nat.succ_le_succ h.size)

theorem GivenOut.snoc_of_size_eq (h : GivenOut table ops)
    (same : (ran table (ops ++ [op])).slots.size = (ran table ops).slots.size) (other : op ≠ .clear)
    (answer : ∀ r bytes, (ran table ops).answer? op = some (r, bytes) →
      ∃ i < (ran table ops).slots.size, r = refOf i) : GivenOut table (ops ++ [op]) := by
  obtain ⟨before, later, split, kept, full⟩ := h.full
  refine ⟨h.size_snoc op, fun r => ?_, before, later ++ [op], ?_, ?_, ?_⟩
  · rw [returned_snoc, same, ← h.returned r]
    constructor
    · rintro (⟨bytes, now⟩ | ⟨-, earlier⟩)
      · exact (h.returned r).mpr (answer r bytes now)
      · exact earlier
    · exact fun earlier => .inr ⟨other, earlier⟩
  · rw [split, List.append_assoc]
  · rw [List.mem_append, List.mem_singleton, not_or]
    exact ⟨kept, Ne.symm other⟩
  · rw [full, same]

theorem GivenOut.clear (h : GivenOut table ops) : GivenOut table (ops ++ [.clear]) := by
  have empty : (ran table (ops ++ [.clear])).slots.size = 0 := by
    rw [ran_snoc]
    rfl
  refine ⟨h.size_snoc _, fun r => ?_, ops ++ [.clear], [], (List.append_nil _).symm,
    List.not_mem_nil, ?_⟩
  · rw [returned_snoc, empty]
    constructor
    · rintro (⟨bytes, answer⟩ | ⟨other, -⟩)
      · cases answer
      · exact absurd rfl other
    · rintro ⟨i, hi, -⟩
      exact absurd hi (Nat.not_lt_zero i)
  · rw [empty, ran_snoc]
    rfl

/-- A slot is added when none is free, and then all of them hold strings. -/
theorem GivenOut.snoc_of_full {bytes : Bytes} (h : GivenOut table ops)
    (answer : (ran table ops).answer? op = some (refOf (ran table ops).nextSlot, bytes))
    (made : (ran table ops).apply op = ((ran table ops).push bytes).2)
    (hf : (ran table ops).free = []) : GivenOut table (ops ++ [op]) := by
  have other := (plain_of_answer answer).ne.2
  refine ⟨h.size_snoc op, fun r => ?_, ops ++ [op], [], (List.append_nil _).symm, List.not_mem_nil, ?_⟩
  · rw [returned_snoc, h.returned r, ran_snoc, made, answer]
    simp only [(inOrder_ran table ops).lt_size_push]
    constructor
    · rintro (⟨bytes', same⟩ | ⟨-, i, hi, rfl⟩)
      · cases same
        exact ⟨_, .inl rfl, rfl⟩
      · exact ⟨i, .inr hi, rfl⟩
    · rintro ⟨i, rfl | hi, rfl⟩
      · exact .inl ⟨bytes, rfl⟩
      · exact .inr ⟨other, i, hi, rfl⟩
  · rw [ran_snoc, made, count_push_of_nil hf]

theorem GivenOut.snoc (h : GivenOut table ops) (op : Operation) : GivenOut table (ops ++ [op]) := by
  rcases apply_cases (ran table ops) op with
    rfl | rfl | rfl | ⟨plain, ⟨bytes, answer, made⟩ | ⟨answer, same⟩⟩
  · apply h.snoc_of_size_eq _ Operation.noConfusion
    · intro r bytes answer
      cases answer
    · rw [ran_snoc]
      exact size_beginRun _
  · apply h.snoc_of_size_eq _ Operation.noConfusion
    · intro r bytes answer
      cases answer
    · rw [ran_snoc]
      exact congrArg Array.size (slots_endRun _)
  · exact h.clear
  · cases hf : (ran table ops).free with
    | nil => exact h.snoc_of_full answer made hf
    | cons slot free =>
      apply h.snoc_of_size_eq _ plain.ne.2
      · intro r bytes' again
        refine ⟨slot, (inOrder_ran table ops).head_lt hf, ?_⟩
        rw [answer_ref again, nextSlot_of_cons hf]
      · rw [ran_snoc, made, size_push_of_cons hf]
  · apply h.snoc_of_size_eq _ plain.ne.2
    · intro r bytes again
      cases answer.symm.trans again
    · rw [ran_snoc, same]

end history

end StringArena
end GameBytecode
