import GameBytecode.Proofs.StoreShape
import Mathlib.Data.List.Basic

/-!
The slots of transient strings. An arena is in order when its free list has each empty slot once;
every operation keeps it so, and what an operation does is said by the strings that the slots hold.
-/
namespace GameBytecode
open Text (Bytes)

namespace StringArena
variable {a : StringArena} {i j : Nat} {t : Transient}

/-- The slot holds a string. -/
def Filled (a : StringArena) (i : Nat) (t : Transient) : Prop := a.slots[i]? = some (some t)

/-- The free slots are the empty ones, each of them once. -/
structure InOrder (a : StringArena) : Prop where
  nodup : a.free.Nodup
  mem_free : ∀ i, i ∈ a.free ↔ a.slots[i]? = some none

theorem Filled.lt_size (h : a.Filled i t) : i < a.slots.size := by
  obtain ⟨inside, -⟩ := Array.getElem?_eq_some_iff.mp h
  exact inside

/-- Every slot below 2^31 has a reference of its own. -/
theorem toInt_refOf (h : i < 0x80000000) : (refOf i).toInt = -(i : Int) - 1 := by
  have number : (Int32.ofNat i).toInt = i := Int32.toInt_ofNat_of_lt h
  have one : (1 : Int32).toInt = 1 := rfl
  have negated : (-(i : Int)).bmod 0x100000000 = -(i : Int) := Int.bmod_eq_of_le (by omega) (by omega)
  rw [refOf, Int32.toInt_sub, Int32.toInt_neg, number, one, negated]
  exact Int.bmod_eq_of_le (by omega) (by omega)

theorem refOf_neg (h : i < 0x80000000) : refOf i < 0 := by
  rw [Int32.lt_iff_toInt_lt, toInt_refOf h]
  have : (0 : Int32).toInt = 0 := rfl
  omega

theorem slotOf_refOf (h : i < 0x80000000) : slotOf (refOf i) = i := by
  rw [slotOf, toInt_refOf h]
  omega

theorem refOf_injective (hi : i < 0x80000000) (hj : j < 0x80000000)
    (same : refOf i = refOf j) : i = j := by
  rw [← slotOf_refOf hi, same, slotOf_refOf hj]

theorem Filled.get_eq (h : a.Filled i t) (low : i < 0x80000000) : a.get (refOf i) = .ok t.bytes := by
  have held : a.slots.getD i none = some t := by
    rw [Array.getD_eq_getD_getElem?, show a.slots[i]? = _ from h]
    rfl
  simp only [get, if_pos (refOf_neg low), slotOf_refOf low, held, Option.map_some]

theorem get_eq_error (h : ∀ t, ¬ a.Filled i t) (low : i < 0x80000000) :
    a.get (refOf i) = .error (.invalidString (refOf i).toInt) := by
  have empty : a.slots.getD i none = none := by
    rw [Array.getD_eq_getD_getElem?]
    cases hi : a.slots[i]? with
    | none => rfl
    | some held =>
      cases held with
      | none => rfl
      | some t => exact absurd hi (h t)
  simp only [get, if_pos (refOf_neg low), slotOf_refOf low, empty, Option.map_none]

/-- The slot that the next string goes to. -/
def nextSlot (a : StringArena) : Nat := a.free.headD a.slots.size

section push
variable {slot : Nat} {free : List Nat}

theorem nextSlot_of_nil (hf : a.free = []) : a.nextSlot = a.slots.size := by rw [nextSlot, hf]; rfl

theorem nextSlot_of_cons (hf : a.free = slot :: free) : a.nextSlot = slot := by rw [nextSlot, hf]; rfl

theorem push_of_nil (hf : a.free = []) (bytes : Bytes) :
    a.push bytes =
      (refOf a.slots.size, { a with slots := a.slots.push (some ⟨bytes, a.epoch⟩) }) := by
  simp only [push, hf]

theorem push_of_cons (hf : a.free = slot :: free) (bytes : Bytes) :
    a.push bytes =
      (refOf slot, { a with slots := a.slots.setIfInBounds slot (some ⟨bytes, a.epoch⟩), free }) := by
  simp only [push, hf]

theorem InOrder.head_empty (h : a.InOrder) (hf : a.free = slot :: free) :
    a.slots[slot]? = some none := by
  apply (h.mem_free slot).mp
  rw [hf]
  exact List.mem_cons_self

theorem InOrder.head_lt (h : a.InOrder) (hf : a.free = slot :: free) : slot < a.slots.size := by
  obtain ⟨inside, -⟩ := Array.getElem?_eq_some_iff.mp (h.head_empty hf)
  exact inside

theorem push_ref (a : StringArena) (bytes : Bytes) : (a.push bytes).1 = refOf a.nextSlot := by
  cases hf : a.free with
  | nil => rw [push_of_nil hf, nextSlot_of_nil hf]
  | cons slot free => rw [push_of_cons hf, nextSlot_of_cons hf]

theorem InOrder.nextSlot_le (h : a.InOrder) : a.nextSlot ≤ a.slots.size := by
  cases hf : a.free with
  | nil => exact Nat.le_of_eq (nextSlot_of_nil hf)
  | cons slot free =>
    rw [nextSlot_of_cons hf]
    exact Nat.le_of_lt (h.head_lt hf)

theorem InOrder.nextSlot_vacant (h : a.InOrder) (t : Transient) : ¬ a.Filled a.nextSlot t := by
  intro filled
  cases hf : a.free with
  | nil =>
    rw [nextSlot_of_nil hf] at filled
    exact Nat.lt_irrefl _ filled.lt_size
  | cons slot free =>
    rw [nextSlot_of_cons hf] at filled
    cases (h.head_empty hf).symm.trans filled

theorem InOrder.getElem?_push (h : a.InOrder) (bytes : Bytes) (i : Nat) :
    (a.push bytes).2.slots[i]? =
      if i = a.nextSlot then some (some ⟨bytes, a.epoch⟩) else a.slots[i]? := by
  cases hf : a.free with
  | nil =>
    rw [push_of_nil hf, nextSlot_of_nil hf]
    exact Array.getElem?_push
  | cons slot free =>
    rw [push_of_cons hf, nextSlot_of_cons hf]
    dsimp only
    rw [Array.getElem?_setIfInBounds]
    by_cases hi : slot = i
    · subst hi
      rw [if_pos rfl, if_pos rfl, if_pos (h.head_lt hf)]
    · rw [if_neg hi, if_neg (Ne.symm hi)]

theorem InOrder.filled_push (h : a.InOrder) (bytes : Bytes) :
    (a.push bytes).2.Filled i t ↔
      i = a.nextSlot ∧ t = ⟨bytes, a.epoch⟩ ∨ i ≠ a.nextSlot ∧ a.Filled i t := by
  unfold Filled
  rw [h.getElem?_push]
  by_cases hi : i = a.nextSlot
  · simp only [hi, if_true, Option.some.injEq, true_and, ne_eq, not_true, false_and, or_false]
    exact eq_comm
  · simp only [hi, if_false, false_and, false_or, ne_eq, not_false_eq_true, true_and]

theorem InOrder.mem_free_push (h : a.InOrder) (bytes : Bytes) (i : Nat) :
    i ∈ (a.push bytes).2.free ↔ i ≠ a.nextSlot ∧ i ∈ a.free := by
  cases hf : a.free with
  | nil =>
    rw [push_of_nil hf, hf]
    simp
  | cons slot free =>
    have nodup := h.nodup
    rw [hf, List.nodup_cons] at nodup
    rw [push_of_cons hf, nextSlot_of_cons hf, List.mem_cons]
    constructor
    · intro mem
      refine ⟨?_, .inr mem⟩
      rintro rfl
      exact nodup.1 mem
    · rintro ⟨other, rfl | mem⟩
      · exact absurd rfl other
      · exact mem

theorem InOrder.push (h : a.InOrder) (bytes : Bytes) : (a.push bytes).2.InOrder := by
  refine ⟨?_, fun i => ?_⟩
  · cases hf : a.free with
    | nil =>
      rw [push_of_nil hf]
      exact h.nodup
    | cons slot free =>
      have nodup := h.nodup
      rw [hf, List.nodup_cons] at nodup
      rw [push_of_cons hf]
      exact nodup.2
  · rw [h.mem_free_push, h.getElem?_push]
    by_cases hi : i = a.nextSlot
    · simp [hi]
    · simp only [ne_eq, hi, not_false_eq_true, true_and, if_false]
      exact h.mem_free i

theorem size_push_le (a : StringArena) (bytes : Bytes) :
    (a.push bytes).2.slots.size ≤ a.slots.size + 1 := by
  cases hf : a.free with
  | nil =>
    rw [push_of_nil hf]
    exact Nat.le_of_eq (Array.size_push _)
  | cons slot free =>
    rw [push_of_cons hf, Array.size_setIfInBounds]
    exact Nat.le_succ _

end push

section release
variable {k : Nat}

theorem getElem?_release (a : StringArena) (k i : Nat) :
    (a.release k).slots[i]? =
      a.slots[i]?.map fun held => if held.any (·.epoch < k) then none else held := by
  rw [release, Array.getElem?_map]

/-- A release ends the strings of earlier epochs and keeps the others. -/
theorem filled_release : (a.release k).Filled i t ↔ a.Filled i t ∧ k ≤ t.epoch := by
  unfold Filled
  rw [getElem?_release]
  rcases a.slots[i]? with _ | _ | u
  · simp
  · simp
  · by_cases old : u.epoch < k
    · simp only [Option.map_some, Option.any_some, old, decide_true, if_true, Option.some.injEq,
        reduceCtorEq, false_iff, not_and]
      rintro rfl
      exact Nat.not_le_of_lt old
    · simp only [Option.map_some, Option.any_some, old, decide_false, Bool.false_eq_true, if_false,
        Option.some.injEq, iff_self_and]
      rintro rfl
      exact Nat.le_of_not_lt old

theorem mem_free_release :
    i ∈ (a.release k).free ↔ (∃ t, a.Filled i t ∧ t.epoch < k) ∨ i ∈ a.free := by
  simp only [release, List.mem_append, List.mem_reverse, List.mem_filter, List.mem_range,
    Array.getD_eq_getD_getElem?]
  apply or_congr_left
  unfold Filled
  constructor
  · rintro ⟨inside, old⟩
    rw [Array.getElem?_eq_getElem inside] at old ⊢
    obtain ⟨t, held, old⟩ := (Option.any_eq_true _ _).mp old
    exact ⟨t, congrArg some held, of_decide_eq_true old⟩
  · rintro ⟨t, held, old⟩
    refine ⟨Filled.lt_size held, ?_⟩
    rw [held]
    exact decide_eq_true old

theorem InOrder.release (h : a.InOrder) (k : Nat) : (a.release k).InOrder := by
  refine ⟨?_, fun i => ?_⟩
  · simp only [StringArena.release]
    rw [List.nodup_append]
    refine ⟨?_, h.nodup, ?_⟩
    · exact (List.reverse_perm _).nodup_iff.mpr (List.nodup_range.filter _)
    · rintro i released _ free rfl
      have empty := (h.mem_free i).mp free
      simp [empty] at released
  · rw [mem_free_release, getElem?_release, h.mem_free]
    unfold Filled
    rcases a.slots[i]? with _ | _ | u
    · simp
    · simp
    · by_cases old : u.epoch < k <;> simp [old]

end release

section runs
variable (a : StringArena)

@[simp] theorem epoch_push (bytes : Bytes) : (a.push bytes).2.epoch = a.epoch := by
  unfold push
  split <;> rfl

@[simp] theorem runs_endRun : a.endRun.runs = a.runs - 1 := by
  simp only [endRun, apply_ite runs, ite_self]

@[simp] theorem runs_beginRun : a.beginRun.runs = a.runs + 1 := by
  simp only [beginRun, release, apply_ite runs, ite_self]

/-- An outermost run begins in a new epoch, and releases what is older than the one before. -/
theorem beginRun_of_outermost (outermost : a.runs = 0) :
    a.beginRun = { a with runs := 1, epoch := a.epoch + 1 }.release a.epoch := by
  simp only [beginRun, outermost]
  rfl

theorem beginRun_of_inner (inner : a.runs ≠ 0) : a.beginRun = { a with runs := a.runs + 1 } := by
  have further : 1 < a.runs + 1 := Nat.succ_lt_succ (Nat.pos_of_ne_zero inner)
  simp only [beginRun, if_pos further]

theorem epoch_endRun :
    a.endRun.epoch = if a.runs - 1 = 0 then a.epoch + 1 else a.epoch := by
  simp only [endRun, apply_ite epoch]

theorem slots_endRun : a.endRun.slots = a.slots := by
  simp only [endRun, apply_ite slots, ite_self]

theorem epoch_beginRun : a.beginRun.epoch = if a.runs = 0 then a.epoch + 1 else a.epoch := by
  by_cases outermost : a.runs = 0
  · rw [a.beginRun_of_outermost outermost, if_pos outermost]
    rfl
  · rw [a.beginRun_of_inner outermost, if_neg outermost]

theorem size_beginRun : a.beginRun.slots.size = a.slots.size := by
  by_cases outermost : a.runs = 0
  · rw [a.beginRun_of_outermost outermost]
    exact Array.size_map
  · rw [a.beginRun_of_inner outermost]

variable {a}

theorem filled_beginRun :
    a.beginRun.Filled i t ↔ a.Filled i t ∧ (a.runs = 0 → a.epoch ≤ t.epoch) := by
  by_cases outermost : a.runs = 0
  · rw [a.beginRun_of_outermost outermost, filled_release]
    simp only [outermost, true_implies]
    rfl
  · rw [a.beginRun_of_inner outermost]
    simp only [outermost, false_implies, and_true]
    rfl

theorem filled_endRun : a.endRun.Filled i t ↔ a.Filled i t := by
  unfold Filled
  rw [slots_endRun]

theorem not_filled_clear : ¬ a.clear.Filled i t := by
  intro filled
  exact Nat.not_lt_zero _ filled.lt_size

theorem InOrder.beginRun (h : a.InOrder) : a.beginRun.InOrder := by
  by_cases outermost : a.runs = 0
  · rw [a.beginRun_of_outermost outermost]
    apply InOrder.release
    exact ⟨h.nodup, h.mem_free⟩
  · rw [a.beginRun_of_inner outermost]
    exact ⟨h.nodup, h.mem_free⟩

theorem InOrder.endRun (h : a.InOrder) : a.endRun.InOrder := by
  unfold StringArena.endRun
  dsimp only
  split <;> exact ⟨h.nodup, h.mem_free⟩

theorem inOrder_clear (a : StringArena) : a.clear.InOrder :=
  ⟨List.nodup_nil, fun i => by simp [clear]⟩

theorem inOrder_ofTable (table : Array UInt8) : (ofTable table).InOrder :=
  ⟨List.nodup_nil, fun i => by simp [ofTable]⟩

end runs

/-- The slots that hold a string, in order. -/
def filledSlots (a : StringArena) : List Nat :=
  (List.range a.slots.size).filter fun i => (a.slots.getD i none).isSome

theorem nodup_filledSlots (a : StringArena) : a.filledSlots.Nodup := List.nodup_range.filter _

theorem mem_filledSlots : i ∈ a.filledSlots ↔ ∃ t, a.Filled i t := by
  simp only [filledSlots, List.mem_filter, List.mem_range, Array.getD_eq_getD_getElem?]
  unfold Filled
  constructor
  · rintro ⟨inside, held⟩
    rw [Array.getElem?_eq_getElem inside] at held ⊢
    obtain ⟨t, held⟩ := Option.isSome_iff_exists.mp held
    exact ⟨t, congrArg some held⟩
  · rintro ⟨t, held⟩
    refine ⟨Filled.lt_size held, ?_⟩
    rw [held]
    rfl

theorem InOrder.count_eq (h : a.InOrder) : a.count = a.filledSlots.length := by
  have empty : a.free.Perm ((List.range a.slots.size).filter fun i =>
      !(a.slots.getD i none).isSome) := by
    apply (List.perm_ext_iff_of_nodup h.nodup (List.nodup_range.filter _)).mpr
    intro i
    rw [h.mem_free, List.mem_filter, List.mem_range, Array.getD_eq_getD_getElem?]
    constructor
    · intro empty
      obtain ⟨inside, -⟩ := Array.getElem?_eq_some_iff.mp empty
      exact ⟨inside, by rw [empty]; rfl⟩
    · rintro ⟨inside, empty⟩
      rw [Array.getElem?_eq_getElem inside] at empty ⊢
      simpa using empty
  have parts := List.length_eq_length_filter_add (l := List.range a.slots.size)
    fun i => (a.slots.getD i none).isSome
  rw [List.length_range, ← empty.length_eq] at parts
  simp only [count, filledSlots]
  omega

end StringArena
end GameBytecode
