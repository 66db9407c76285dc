import GameBytecode.Proofs.AddressingModes
import GameBytecode.Proofs.SlotReuse

/-!
What the operations that look at strings say of them, whatever the table of the module holds and
whatever has been done with its strings. All of them say what the bytes say, but for one reference:
0 counts as empty, whether or not the table begins with an end of string.
-/
namespace GameBytecode
open Text (Bytes)

namespace StringArena

/-- An answer is that of the lexicographic order. -/
structure Tells (o : Ordering) (x y : Bytes) : Prop where
  same : o = .eq ↔ x = y
  before : o = .lt ↔ x < y
  behind : o = .gt ↔ y < x

theorem compareBytes_tells (x y : Bytes) : Tells (compareBytes x y) x y := by
  fun_induction compareBytes x y with
  | case1 => exact ⟨by simp, by simp, by simp⟩
  | case2 => exact ⟨by simp, by simp, by simp⟩
  | case3 => exact ⟨by simp, by simp, by simp⟩
  | case4 x xs y ys less =>
    have apart : x ≠ y := UInt8.ne_of_lt less
    have notGreater : ¬ y < x := UInt8.not_lt.mpr (UInt8.le_of_lt less)
    exact ⟨by simp [apart], by simp [List.cons_lt_cons_iff, less],
      by simp [List.cons_lt_cons_iff, notGreater, apart.symm]⟩
  | case5 x xs y ys notLess greater =>
    have apart : y ≠ x := UInt8.ne_of_lt greater
    exact ⟨by simp [apart.symm], by simp [List.cons_lt_cons_iff, notLess, apart.symm],
      by simp [List.cons_lt_cons_iff, greater]⟩
  | case6 x xs y ys notLess notGreater ih =>
    obtain rfl : x = y :=
      UInt8.le_antisymm (UInt8.not_lt.mp notGreater) (UInt8.not_lt.mp notLess)
    exact ⟨by simp [ih.same], by simp [ih.before], by simp [ih.behind]⟩

theorem holds_eq_compareBytes (x y : Bytes) :
    Comparison.eq.holds (compareBytes x y) = decide (x = y) := by
  rw [Bool.eq_iff_iff, decide_eq_true_iff, ← (compareBytes_tells x y).same]
  exact Ordering.isEq_iff_eq_eq

/-- What is seen of two references that read as certain bytes. -/
structure Observed (a : StringArena) (r s : StringRef) (x y : Bytes) : Prop where
  empty : ∃ answer, a.isEmpty r = .ok answer ∧ (answer = true ↔ r = 0 ∨ x = [])
  order : ∃ o, a.compare r s = .ok o ∧ Tells o x y
  /-- Joining them makes a string and ends none. The reference is a new one and reads as both, if the
  string goes to one of the slots that have a reference. -/
  joined : ∃ t after, a.concat r s = .ok (t, after) ∧
    (∀ q bytes, a.get q = .ok bytes → after.get q = .ok bytes) ∧
    (a.nextSlot < 0x80000000 → t < 0 ∧ ¬ a.Readable t ∧ after.get t = .ok (x ++ y))

section observers
variable {a : StringArena} {r s : StringRef} {x y : Bytes}

theorem isEmpty_eq (hr : a.get r = .ok x) : a.isEmpty r = .ok (decide (r = 0 ∨ x = [])) := by
  unfold isEmpty
  by_cases zero : r = 0
  · simp [zero]
  · rw [if_neg zero, hr]
    cases x <;> simp [Except.map, zero]

theorem compare_eq (hr : a.get r = .ok x) (hs : a.get s = .ok y) :
    a.compare r s = .ok (compareBytes x y) := by
  simp only [compare, hr, hs]

theorem concat_eq (hr : a.get r = .ok x) (hs : a.get s = .ok y) :
    a.concat r s = .ok (a.push (x ++ y)) := by
  simp only [concat, hr, hs]

theorem InOrder.get_pushed (h : a.InOrder) (low : a.nextSlot < 0x80000000) (bytes : Bytes) :
    (a.push bytes).2.get (a.push bytes).1 = .ok bytes := by
  have filled : (a.push bytes).2.Filled a.nextSlot ⟨bytes, a.epoch⟩ :=
    (h.filled_push bytes).mpr (.inl ⟨rfl, rfl⟩)
  rw [push_ref]
  exact filled.get_eq low

theorem InOrder.observed (h : a.InOrder) (hr : a.get r = .ok x) (hs : a.get s = .ok y) :
    a.Observed r s x y where
  empty := ⟨_, isEmpty_eq hr, decide_eq_true_iff⟩
  order := ⟨_, compare_eq hr hs, compareBytes_tells x y⟩
  joined := by
    refine ⟨(a.push (x ++ y)).1, (a.push (x ++ y)).2, concat_eq hr hs,
      fun q bytes read => h.get_push _ read, fun low => ?_⟩
    refine ⟨?_, ?_, h.get_pushed low _⟩
    · rw [push_ref]
      exact refOf_neg low
    · rw [push_ref, readable_refOf low]
      rintro ⟨t, filled⟩
      exact h.nextSlot_vacant t filled

end observers
end StringArena

namespace Step

def emptyTest (slot free target : UInt16) : Statement :=
  ⟨(Opcode.isEmpty .string).code, slot, free, target⟩

def equalTest (left right target : UInt16) : Statement :=
  ⟨(Opcode.compare .string .eq).code, left, right, target⟩

theorem emptyTest_opcode (slot free target : UInt16) :
    Opcode.ofCode? (emptyTest slot free target).op = some (.isEmpty .string) := by
  have coded : Opcode.ofCode? (Opcode.isEmpty .string).code = some (.isEmpty .string) := by
    decide +kernel
  exact coded

theorem equalTest_opcode (left right target : UInt16) :
    Opcode.ofCode? (equalTest left right target).op = some (.compare .string .eq) := by
  have coded : Opcode.ofCode? (Opcode.compare .string .eq).code = some (.compare .string .eq) := by
    decide +kernel
  exact coded

section tests
variable {settings : Settings} {m : Module} {memory : Memory} {a : StringArena} {r t : StringRef}
  {x y : Bytes} {slot other : UInt16}

theorem takes_emptyTest (hr : a.get r = .ok x) (first : memory.read slot.toNat = .ok r.toUInt32)
    (free target : UInt16) :
    Takes settings m (emptyTest slot free target) ⟨memory, a⟩ (if r = 0 ∨ x = [] then 1 else 0) := by
  intro index
  have read : memory.read (emptyTest slot free target).a.toNat = .ok r.toUInt32 := first
  simp only [step, emptyTest_opcode, effect, Plan.run_reference_bind, Place.address, Statement.slot,
    read, Store.after, Int32.toInt32_toUInt32, Plan.test, Plan.observe_bind, Plan.run,
    StringArena.isEmpty_eq hr, Plan.done_bind, Plan.putFlag, run_putWord, decide_eq_true_eq]

theorem takes_equalTest (hr : a.get r = .ok x) (ht : a.get t = .ok y)
    (first : memory.read slot.toNat = .ok r.toUInt32)
    (second : memory.read other.toNat = .ok t.toUInt32) (target : UInt16) :
    Takes settings m (equalTest slot other target) ⟨memory, a⟩ (if x = y then 1 else 0) := by
  intro index
  have left : memory.read (equalTest slot other target).a.toNat = .ok r.toUInt32 := first
  have right : memory.read (equalTest slot other target).b.toNat = .ok t.toUInt32 := second
  simp only [step, equalTest_opcode, effect, Plan.run_reference_bind, Place.address, Statement.slot,
    left, right, Store.after, Int32.toInt32_toUInt32, Plan.test, Plan.observe_bind, Plan.run,
    StringArena.compare_eq hr ht, Plan.done_bind, Plan.putFlag, run_putWord, Except.map,
    StringArena.holds_eq_compareBytes, decide_eq_true_eq]

theorem emptyTest_eq (hr : a.get r = .ok x) (ht : a.get t = .ok []) (told : r ≠ 0 ∨ x = [])
    (first : memory.read slot.toNat = .ok r.toUInt32)
    (second : memory.read other.toNat = .ok t.toUInt32) (index : Nat) (free target : UInt16) :
    step settings m index (equalTest slot other target) ⟨memory, a⟩ =
        step settings m index (emptyTest slot free target) ⟨memory, a⟩ ∧
      step settings m index (equalTest other slot target) ⟨memory, a⟩ =
        step settings m index (emptyTest slot free target) ⟨memory, a⟩ := by
  have tested : Takes settings m (emptyTest slot free target) ⟨memory, a⟩
      (if r = 0 ∨ x = [] then 1 else 0) := takes_emptyTest hr first free target
  have left : Takes settings m (equalTest slot other target) ⟨memory, a⟩ (if x = [] then 1 else 0) :=
    takes_equalTest hr ht first second target
  have right : Takes settings m (equalTest other slot target) ⟨memory, a⟩ (if [] = x then 1 else 0) :=
    takes_equalTest ht hr second first target
  have empty : (r = 0 ∨ x = []) ↔ x = [] := by
    rcases told with apart | empty
    · simp only [apart, false_or]
    · simp only [empty, or_true]
  simp only [empty] at tested
  simp only [eq_comm (a := ([] : Bytes))] at right
  exact ⟨(left index).trans (tested index).symm, (right index).trans (tested index).symm⟩

end tests
end Step

namespace StringArena

/-- Strings as they are seen after any operations on those of a module with any table, by two references
that can be read. They are empty, equal, ordered and joined as their bytes are, but that reference 0 is
always empty, and that only the first 2^31 slots have references. The statements that test a string for
being empty, and for being the same as an empty one, have the same effect; for reference 0 they have it
if the table has no text there. -/
theorem strings_observed (table : Array UInt8) (ops : List Operation) {r s : StringRef} {x y : Bytes}
    (hr : (ran table ops).get r = .ok x) (hs : (ran table ops).get s = .ok y) :
    (ran table ops).Observed r s x y ∧
    (y = [] → r ≠ 0 ∨ x = [] → ∀ settings m (memory : Memory) (slot other : UInt16),
      memory.read slot.toNat = .ok r.toUInt32 → memory.read other.toNat = .ok s.toUInt32 →
      ∀ index free target,
        step settings m index (Step.equalTest slot other target) ⟨memory, ran table ops⟩ =
          step settings m index (Step.emptyTest slot free target) ⟨memory, ran table ops⟩ ∧
        step settings m index (Step.equalTest other slot target) ⟨memory, ran table ops⟩ =
          step settings m index (Step.emptyTest slot free target) ⟨memory, ran table ops⟩) := by
  refine ⟨(inOrder_ran table ops).observed hr hs, ?_⟩
  rintro rfl told settings m memory slot other first second index free target
  exact Step.emptyTest_eq hr hs told first second index free target

/-- A string of the table and an empty transient one. -/
theorem text_observed :
    (ran #[0, 97, 98, 0] [.push []]).Observed 1 (-1) [97, 98] [] ∧
    ∀ m, step {} m 1 (Step.equalTest 0 1 2) ⟨⟨#[1, 0xffffffff, 7]⟩, ran #[0, 97, 98, 0] [.push []]⟩ =
      step {} m 1 (Step.emptyTest 0 0 2) ⟨⟨#[1, 0xffffffff, 7]⟩, ran #[0, 97, 98, 0] [.push []]⟩ := by
  obtain ⟨observed, same⟩ := strings_observed #[0, 97, 98, 0] [.push []] (r := 1) (s := -1)
    (x := [97, 98]) (y := []) (ok_of_toOption (by decide +kernel)) (ok_of_toOption (by decide +kernel))
  refine ⟨observed, fun m => ?_⟩
  exact (same rfl (.inl (by decide)) {} m ⟨#[1, 0xffffffff, 7]⟩ 0 1
    (ok_of_toOption (by decide +kernel)) (ok_of_toOption (by decide +kernel)) 1 0 2).1

/-- Empty strings without end. -/
def crowd (count : Nat) : List Operation := List.replicate count (.push [])

theorem ran_crowd (table : Array UInt8) (count : Nat) :
    (ran table (crowd count)).table = table ∧ (ran table (crowd count)).free = [] ∧
      (ran table (crowd count)).slots.size = count := by
  induction count with
  | zero => exact ⟨rfl, rfl, rfl⟩
  | succ count ih =>
    obtain ⟨same, free, size⟩ := ih
    rw [crowd, List.replicate_succ', ran_snoc, ← crowd]
    simp only [apply]
    rw [push_of_nil free]
    exact ⟨same, free, by rw [Array.size_push, size]⟩

theorem get_of_table {a b : StringArena} {r : StringRef} (h : ¬ r < 0) (same : a.table = b.table) :
    a.get r = b.get r := by
  simp only [get, if_neg h, same]

theorem get_behind {a : StringArena} {r : StringRef} (h : a.table.size < r.toInt.toNat) :
    a.get r = .error (.invalidString r.toInt) := by
  have module : ¬ r < 0 := by
    rw [Int32.lt_iff_toInt_lt, Int32.toInt_zero]
    omega
  simp only [get, moduleString?, if_neg module, if_pos (Or.inr h)]

/-- Behind 2^31 strings the number of a new one wraps around, to a place that the table does not
reach. -/
theorem push_unread {a : StringArena} (free : a.free = []) (full : a.slots.size = 0x80000000)
    (small : a.table.size < 0x7fffffff) (bytes : Bytes) :
    (a.push bytes).2.get (a.push bytes).1 = .error (.invalidString 0x7fffffff) := by
  have wraps : refOf 0x80000000 = 0x7fffffff := by decide
  have place : (0x7fffffff : StringRef).toInt = 0x7fffffff := by decide +kernel
  rw [push_of_nil free, full, wraps]
  dsimp only
  rw [get_behind, place]
  rw [place]
  exact small

theorem crowd_unread {table : Array UInt8} {count : Nat} {r : StringRef} {x : Bytes}
    (full : count = 0x80000000) (small : table.size < 0x7fffffff) (module : ¬ r < 0)
    (read : (ofTable table).get r = .ok x) :
    ∃ t after, (ran table (crowd count)).concat r r = .ok (t, after) ∧
      after.get t = .error (.invalidString 0x7fffffff) := by
  obtain ⟨same, free, size⟩ := ran_crowd table count
  rw [← get_of_table (a := ran table (crowd count)) module same] at read
  refine ⟨_, _, concat_eq read read, push_unread free (size.trans full) ?_ (x ++ x)⟩
  rw [same]
  exact small

/-- A table that begins with a text. Reference 0 reads as that text and is not the same as an empty
string, but the test for being empty says it is. And behind 2^31 strings what joins two of them cannot
be read. -/
theorem text_at_zero :
    ((ofTable #[97, 0]).get 0 = .ok [97] ∧ (ofTable #[97, 0]).get 1 = .ok [] ∧
      (ofTable #[97, 0]).isEmpty 0 = .ok true ∧ (ofTable #[97, 0]).compare 0 1 = .ok .gt ∧
      ∀ m, Step.Takes {} m (Step.emptyTest 0 0 2) ⟨⟨#[0, 1, 7]⟩, ofTable #[97, 0]⟩ 1 ∧
        Step.Takes {} m (Step.equalTest 0 1 2) ⟨⟨#[0, 1, 7]⟩, ofTable #[97, 0]⟩ 0) ∧
    ∃ t after, (ran #[97, 0] (crowd 0x80000000)).concat 1 1 = .ok (t, after) ∧
      after.get t = .error (.invalidString 0x7fffffff) := by
  have zero : (ofTable #[97, 0]).get 0 = .ok [97] := ok_of_toOption (by decide +kernel)
  have one : (ofTable #[97, 0]).get 1 = .ok [] := ok_of_toOption (by decide +kernel)
  have first : Memory.read ⟨#[0, 1, 7]⟩ (0 : UInt16).toNat = .ok (0 : StringRef).toUInt32 :=
    ok_of_toOption (by decide +kernel)
  have second : Memory.read ⟨#[0, 1, 7]⟩ (1 : UInt16).toNat = .ok (1 : StringRef).toUInt32 :=
    ok_of_toOption (by decide +kernel)
  refine ⟨⟨zero, one, isEmpty_eq zero, compare_eq zero one, fun m => ⟨?_, ?_⟩⟩, ?_⟩
  · exact Step.takes_emptyTest zero first 0 2
  · exact Step.takes_equalTest zero one first second 2
  · exact crowd_unread rfl (by decide) (by decide) one

end StringArena
end GameBytecode
