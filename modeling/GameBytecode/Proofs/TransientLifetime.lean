import GameBytecode.Proofs.ArenaSlots
import Mathlib.Data.List.Induction
import Mathlib.Data.List.Nodup

/-!
How long a transient string lasts, told by the operations alone: where runs begin and end, and where
the strings are cleared. The arena keeps to it with a number for the epoch and with slots that are used
again.
-/
namespace GameBytecode
open Text (Bytes)

namespace StringArena

/-- An operation that changes the transient strings. -/
inductive Operation where
  | beginRun
  | endRun
  | push (bytes : Bytes)
  | concat (r s : StringRef)
  | clear
deriving DecidableEq

def apply (a : StringArena) : Operation → StringArena
  | .beginRun => a.beginRun
  | .endRun => a.endRun
  | .push bytes => (a.push bytes).2
  | .concat r s =>
    match a.concat r s with
    | .ok (_, a') => a'
    | .error _ => a
  | .clear => a.clear

/-- The reference that an operation returns, with the bytes that it stands for. -/
def answer? (a : StringArena) : Operation → Option (StringRef × Bytes)
  | .push bytes => some ((a.push bytes).1, bytes)
  | .concat r s =>
    match a.get r, a.get s, a.concat r s with
    | .ok x, .ok y, .ok (ref, _) => some (ref, x ++ y)
    | _, _, _ => none
  | _ => none

/-- The arena after operations in order. -/
def ran (table : Array UInt8) (ops : List Operation) : StringArena :=
  ops.foldl apply (.ofTable table)

/-- The number of runs in progress after an operation. -/
def Operation.level (n : Nat) : Operation → Nat
  | .beginRun => n + 1
  | .endRun => n - 1
  | _ => n

def level (n : Nat) (ops : List Operation) : Nat := ops.foldl Operation.level n

/-- No run ends that has not begun. -/
def Nested : Nat → List Operation → Prop
  | _, [] => True
  | n, op :: ops => (op = .endRun → 0 < n) ∧ Nested (op.level n) ops

/-- How many outermost runs begin. -/
def openings : Nat → List Operation → Nat
  | _, [] => 0
  | n, op :: ops => (if op = .beginRun ∧ n = 0 then 1 else 0) + openings (op.level n) ops

/-- The opening that ends a string made with a number of runs in progress: the next one if there are
runs, the second one if there is none. -/
def lifespan (n : Nat) : Nat := if n = 0 then 2 else 1

/-- A string made with n runs in progress lasts through the operations that follow. -/
def Lives (n : Nat) (later : List Operation) : Prop :=
  .clear ∉ later ∧ openings n later < lifespan n

instance : (n : Nat) → (ops : List Operation) → Decidable (Nested n ops)
  | _, [] => isTrue trivial
  | n, op :: ops =>
    have : Decidable (Nested (op.level n) ops) := instDecidableNested (op.level n) ops
    inferInstanceAs (Decidable (_ ∧ _))

instance (n : Nat) (later : List Operation) : Decidable (Lives n later) :=
  inferInstanceAs (Decidable (_ ∧ _))

/-- The reference that the operation at a place returned, if it is in its lifetime. -/
def livingAt? (table : Array UInt8) (ops : List Operation) (k : Nat) : Option StringRef :=
  match ops.drop k with
  | [] => none
  | op :: later =>
    if Lives (level 0 (ops.take k)) later then
      ((ran table (ops.take k)).answer? op).map (·.1)
    else none

/-- The references that are in their lifetime after operations. -/
def living (table : Array UInt8) (ops : List Operation) : List StringRef :=
  (List.range ops.length).filterMap (livingAt? table ops)

@[simp] theorem lifespan_zero : lifespan 0 = 2 := rfl

@[simp] theorem lifespan_succ (n : Nat) : lifespan (n + 1) = 1 := rfl

section history
variable {n : Nat} {op : Operation} {ops later : List Operation}

theorem level_append (n : Nat) (ops later : List Operation) :
    level n (ops ++ later) = level (level n ops) later := List.foldl_append

theorem nested_append : Nested n (ops ++ later) ↔ Nested n ops ∧ Nested (level n ops) later := by
  induction ops generalizing n with
  | nil => simp [Nested, level]
  | cons op ops ih =>
    simp only [List.cons_append, Nested, ih, and_assoc]
    rfl

theorem openings_append (n : Nat) (ops later : List Operation) :
    openings n (ops ++ later) = openings n ops + openings (level n ops) later := by
  induction ops generalizing n with
  | nil => simp [openings, level]
  | cons op ops ih =>
    simp only [List.cons_append, openings, ih, Nat.add_assoc]
    rfl

theorem openings_snoc (n : Nat) (ops : List Operation) (op : Operation) :
    openings n (ops ++ [op]) =
      openings n ops + if op = .beginRun ∧ level n ops = 0 then 1 else 0 := by
  rw [openings_append]
  rfl

theorem level_snoc (n : Nat) (ops : List Operation) (op : Operation) :
    level n (ops ++ [op]) = op.level (level n ops) := level_append n ops [op]

theorem Nested.snoc (h : Nested n (ops ++ [op])) :
    Nested n ops ∧ (op = .endRun → 0 < level n ops) := by
  obtain ⟨before, last, -⟩ := nested_append.mp h
  exact ⟨before, last⟩

theorem lives_snoc : Lives n (later ++ [op]) ↔ Lives n later ∧ op ≠ .clear ∧
    (op = .beginRun → level n later = 0 → openings n later + 1 < lifespan n) := by
  simp only [Lives, List.mem_append, List.mem_singleton, not_or, openings_snoc]
  by_cases opens : op = .beginRun ∧ level n later = 0
  · rw [if_pos opens]
    simp only [opens.1, opens.2, true_implies]
    constructor
    · rintro ⟨⟨kept, other⟩, inside⟩
      exact ⟨⟨kept, Nat.lt_of_succ_lt inside⟩, Ne.symm other, inside⟩
    · rintro ⟨⟨kept, -⟩, other, inside⟩
      exact ⟨⟨kept, Ne.symm other⟩, inside⟩
  · rw [if_neg opens, Nat.add_zero]
    constructor
    · rintro ⟨⟨kept, other⟩, inside⟩
      exact ⟨⟨kept, inside⟩, Ne.symm other, fun begins zero => absurd ⟨begins, zero⟩ opens⟩
    · rintro ⟨⟨kept, inside⟩, other, -⟩
      exact ⟨⟨kept, Ne.symm other⟩, inside⟩

theorem Lives.of_append {more : List Operation} (h : Lives n (later ++ more)) : Lives n later := by
  obtain ⟨kept, inside⟩ := h
  rw [openings_append] at inside
  exact ⟨fun mem => kept (List.mem_append_left _ mem), Nat.lt_of_le_of_lt (Nat.le_add_right ..) inside⟩

end history

section steps
variable {table : Array UInt8} {ops : List Operation} {op : Operation} {r : StringRef}
  {t : Transient}

theorem ran_snoc (table : Array UInt8) (ops : List Operation) (op : Operation) :
    ran table (ops ++ [op]) = (ran table ops).apply op := List.foldl_concat ..

/-- The operation neither begins nor ends a run, nor does it clear the strings. -/
def Operation.Plain : Operation → Prop
  | .push _ | .concat _ _ => True
  | _ => False

theorem Operation.Plain.level_eq (h : op.Plain) (n : Nat) : op.level n = n := by
  cases op <;> first | rfl | exact h.elim

theorem Operation.Plain.ne (h : op.Plain) : op ≠ .beginRun ∧ op ≠ .clear := by
  cases op <;> first | exact h.elim | exact ⟨Operation.noConfusion, Operation.noConfusion⟩

theorem Operation.Plain.openings_snoc (h : op.Plain) (n : Nat) (ops : List Operation) :
    openings n (ops ++ [op]) = openings n ops := by
  rw [StringArena.openings_snoc, if_neg fun both => h.ne.1 both.1, Nat.add_zero]

/-- An operation begins a run, ends one, clears the strings, makes a string, or changes nothing. -/
theorem apply_cases (a : StringArena) (op : Operation) :
    op = .beginRun ∨ op = .endRun ∨ op = .clear ∨ op.Plain ∧
      ((∃ bytes, a.answer? op = some (refOf a.nextSlot, bytes) ∧ a.apply op = (a.push bytes).2) ∨
        a.answer? op = none ∧ a.apply op = a) := by
  cases op with
  | beginRun => exact .inl rfl
  | endRun => exact .inr (.inl rfl)
  | clear => exact .inr (.inr (.inl rfl))
  | push bytes =>
    right; right; right
    refine ⟨trivial, .inl ⟨bytes, ?_, rfl⟩⟩
    simp only [answer?, push_ref]
  | concat r s =>
    right; right; right
    refine ⟨trivial, ?_⟩
    simp only [answer?, apply, concat]
    cases a.get r with
    | error e => exact .inr ⟨rfl, rfl⟩
    | ok x =>
      cases a.get s with
      | error e => exact .inr ⟨rfl, rfl⟩
      | ok y =>
        left
        refine ⟨x ++ y, ?_, rfl⟩
        simp only [push_ref]

theorem answer_ref {a : StringArena} {bytes : Bytes} (h : a.answer? op = some (r, bytes)) :
    r = refOf a.nextSlot := by
  rcases apply_cases a op with rfl | rfl | rfl | ⟨-, ⟨bytes', answer, -⟩ | ⟨none, -⟩⟩
  · cases h
  · cases h
  · cases h
  · cases h.symm.trans answer
    rfl
  · cases h.symm.trans none

theorem InOrder.apply {a : StringArena} (h : a.InOrder) (op : Operation) : (a.apply op).InOrder := by
  rcases apply_cases a op with rfl | rfl | rfl | ⟨-, ⟨bytes, -, made⟩ | ⟨-, same⟩⟩
  · exact h.beginRun
  · exact h.endRun
  · exact a.inOrder_clear
  · rw [made]
    exact h.push bytes
  · rw [same]
    exact h

theorem size_apply_le (a : StringArena) (op : Operation) :
    (a.apply op).slots.size ≤ a.slots.size + 1 := by
  rcases apply_cases a op with rfl | rfl | rfl | ⟨-, ⟨bytes, -, made⟩ | ⟨-, same⟩⟩
  · exact Nat.le_succ_of_le (Nat.le_of_eq a.size_beginRun)
  · exact Nat.le_succ_of_le (Nat.le_of_eq (congrArg Array.size a.slots_endRun))
  · exact Nat.zero_le _
  · rw [made]
    exact a.size_push_le bytes
  · rw [same]
    exact Nat.le_succ _

/-- After an operation a slot holds the string that it has made, or the string from before, unless that
is cleared or released. -/
theorem InOrder.filled_apply {a : StringArena} {i : Nat} (h : a.InOrder) :
    (a.apply op).Filled i t ↔
      i = a.nextSlot ∧ a.answer? op = some (refOf i, t.bytes) ∧ t.epoch = a.epoch ∨
      a.Filled i t ∧ op ≠ .clear ∧ (op = .beginRun → a.runs = 0 → a.epoch ≤ t.epoch) := by
  rcases apply_cases a op with rfl | rfl | rfl | ⟨plain, ⟨bytes, answer, made⟩ | ⟨answer, same⟩⟩
  · simp only [StringArena.apply, answer?, filled_beginRun, reduceCtorEq, false_and, and_false,
      false_or, ne_eq, not_false_eq_true, true_and, true_implies]
  · simp only [StringArena.apply, answer?, filled_endRun, reduceCtorEq, false_and, and_false,
      false_or, ne_eq, not_false_eq_true, false_implies, and_true]
  · simp only [StringArena.apply, answer?, not_filled_clear, reduceCtorEq, false_and, and_false,
      false_or, ne_eq, not_true]
  · obtain ⟨begins, clears⟩ := plain.ne
    rw [made, h.filled_push, answer]
    simp only [begins, clears, ne_eq, not_false_eq_true, false_implies, and_true]
    constructor
    · rintro (⟨rfl, rfl⟩ | ⟨-, held⟩)
      · exact .inl ⟨rfl, rfl, rfl⟩
      · exact .inr held
    · rintro (⟨rfl, same, epoch⟩ | held)
      · left
        obtain ⟨bytes', epoch'⟩ := t
        cases same
        cases epoch
        exact ⟨rfl, rfl⟩
      · right
        refine ⟨?_, held⟩
        rintro rfl
        exact h.nextSlot_vacant t held
  · obtain ⟨begins, clears⟩ := plain.ne
    rw [same, answer]
    simp only [begins, clears, reduceCtorEq, false_and, and_false, false_or, ne_eq,
      not_false_eq_true, false_implies, and_true]

theorem ran_runs (table : Array UInt8) (ops : List Operation) :
    (ran table ops).runs = level 0 ops := by
  induction ops using List.reverseRecOn with
  | nil => rfl
  | append_singleton ops op ih =>
    rw [ran_snoc, level_snoc, ← ih]
    rcases apply_cases (ran table ops) op with
      rfl | rfl | rfl | ⟨plain, ⟨bytes, -, made⟩ | ⟨-, same⟩⟩
    · exact runs_beginRun _
    · exact runs_endRun _
    · rfl
    · rw [made, runs_push, plain.level_eq]
    · rw [same, plain.level_eq]

/-- The epoch is twice the number of outermost runs begun, less one while such a run is in progress. -/
theorem ran_epoch (table : Array UInt8) (nested : Nested 0 ops) :
    (ran table ops).epoch + 2 = 2 * openings 0 ops + lifespan (level 0 ops) := by
  induction ops using List.reverseRecOn with
  | nil => rfl
  | append_singleton ops op ih =>
    obtain ⟨before, last⟩ := nested.snoc
    have ih := ih before
    have runs := ran_runs table ops
    rw [ran_snoc, level_snoc]
    rcases apply_cases (ran table ops) op with
      rfl | rfl | rfl | ⟨plain, ⟨bytes, -, made⟩ | ⟨-, same⟩⟩
    · rw [openings_snoc]
      simp only [apply, epoch_beginRun, runs, Operation.level, lifespan_succ]
      cases hn : level 0 ops with
      | zero =>
        rw [hn] at ih
        simp at ih ⊢
        omega
      | succ n =>
        rw [hn] at ih
        simpa using ih
    · have inside := last rfl
      rw [openings_snoc]
      simp only [apply, epoch_endRun, runs, Operation.level]
      obtain ⟨n, hn⟩ := Nat.exists_eq_add_one_of_ne_zero (Nat.ne_of_gt inside)
      rw [hn] at ih ⊢
      cases n with
      | zero => simp at ih ⊢; omega
      | succ n => simpa using ih
    · rw [openings_snoc]
      simpa [apply, clear, Operation.level] using ih
    · rw [made, epoch_push, plain.level_eq, plain.openings_snoc, ih]
    · rw [same, plain.level_eq, plain.openings_snoc, ih]

end steps

/-- A string that an operation made, with the reference returned for it, is in its lifetime. -/
def Living (table : Array UInt8) (ops : List Operation) (r : StringRef) (t : Transient) : Prop :=
  ∃ before op later, ops = before ++ op :: later ∧
    (ran table before).answer? op = some (r, t.bytes) ∧ t.epoch = (ran table before).epoch ∧
    Lives (level 0 before) later

section lifetime
variable {table : Array UInt8} {ops before later : List Operation} {op : Operation} {r : StringRef}
  {t : Transient}

theorem plain_of_answer {a : StringArena} {made : StringRef × Bytes} (h : a.answer? op = some made) :
    op.Plain := by
  rcases apply_cases a op with rfl | rfl | rfl | ⟨plain, -⟩
  · cases h
  · cases h
  · cases h
  · exact plain

theorem snoc_eq_iff {last : Operation} : ops ++ [last] = before ++ op :: later ↔
    ops = before ∧ last = op ∧ later = [] ∨
      ∃ rest, later = rest ++ [last] ∧ ops = before ++ op :: rest := by
  constructor
  · intro h
    rcases List.eq_nil_or_concat' later with rfl | ⟨rest, final, rfl⟩
    · obtain ⟨rfl, same⟩ := List.append_inj' h rfl
      cases same
      exact .inl ⟨rfl, rfl, rfl⟩
    · right
      rw [← List.cons_append, ← List.append_assoc] at h
      obtain ⟨rfl, same⟩ := List.append_inj' h rfl
      cases same
      exact ⟨rest, rfl, rfl⟩
  · rintro (⟨rfl, rfl, rfl⟩ | ⟨rest, rfl, rfl⟩)
    · rfl
    · simp

/-- The next opening ends a string if and only if the release there takes its epoch for an old one. -/
theorem survives_iff (nested : Nested 0 (before ++ op :: later)) (plain : op.Plain) :
    (level (level 0 before) later = 0 →
        openings (level 0 before) later + 1 < lifespan (level 0 before)) ↔
      ((ran table (before ++ op :: later)).runs = 0 →
        (ran table (before ++ op :: later)).epoch ≤ (ran table before).epoch) := by
  have now := ran_epoch table nested
  have made := ran_epoch table (nested_append.mp nested).1
  have through : level 0 (before ++ op :: later) = level (level 0 before) later := by
    rw [level_append]
    exact congrArg (level · later) (plain.level_eq _)
  have opened : openings 0 (before ++ op :: later) =
      openings 0 before + openings (level 0 before) later := by
    rw [openings_append, openings, if_neg fun both => plain.ne.1 both.1, plain.level_eq, Nat.zero_add]
  rw [ran_runs, through]
  rw [through, opened] at now
  apply imp_congr_right
  intro outermost
  rw [outermost, lifespan_zero] at now
  cases hn : level 0 before with
  | zero =>
    rw [hn] at made now
    simp only [lifespan_zero] at made ⊢
    omega
  | succ n =>
    rw [hn] at made now
    simp only [lifespan_succ] at made ⊢
    omega

/-- After one more operation a string is in its lifetime if that operation has made it, or if it was so
before and is neither cleared nor released. -/
theorem living_snoc (nested : Nested 0 ops) : Living table (ops ++ [op]) r t ↔
    (ran table ops).answer? op = some (r, t.bytes) ∧ t.epoch = (ran table ops).epoch ∨
    Living table ops r t ∧ op ≠ .clear ∧
      (op = .beginRun → (ran table ops).runs = 0 → (ran table ops).epoch ≤ t.epoch) := by
  constructor
  · rintro ⟨before, op', later, split, answer, epoch, lives⟩
    rcases snoc_eq_iff.mp split with ⟨rfl, rfl, rfl⟩ | ⟨rest, rfl, rfl⟩
    · exact .inl ⟨answer, epoch⟩
    · obtain ⟨lives, kept, survives⟩ := lives_snoc.mp lives
      refine .inr ⟨⟨before, op', rest, rfl, answer, epoch, lives⟩, kept, ?_⟩
      rw [epoch]
      exact fun begins => (survives_iff nested (plain_of_answer answer)).mp (survives begins)
  · rintro (⟨answer, epoch⟩ | ⟨⟨before, op', later, rfl, answer, epoch, lives⟩, kept, survives⟩)
    · refine ⟨ops, op, [], rfl, answer, epoch, List.not_mem_nil, ?_⟩
      rw [openings, lifespan]
      split <;> decide
    · refine ⟨before, op', later ++ [op], by simp, answer, epoch, ?_⟩
      rw [epoch] at survives
      exact lives_snoc.mpr ⟨lives, kept, fun begins =>
        (survives_iff nested (plain_of_answer answer)).mpr (survives begins)⟩

/-- The arena accords with the operations that led to it: its slots hold the strings that are in their
lifetime. -/
structure Accords (table : Array UInt8) (ops : List Operation) : Prop where
  inOrder : (ran table ops).InOrder
  size : (ran table ops).slots.size ≤ ops.length
  filled : ∀ i < 0x80000000, ∀ t, (ran table ops).Filled i t ↔ Living table ops (refOf i) t

theorem accords (table : Array UInt8) (nested : Nested 0 ops) (short : ops.length < 0x80000000) :
    Accords table ops := by
  induction ops using List.reverseRecOn with
  | nil =>
    refine ⟨inOrder_ofTable table, Nat.le_refl _, fun i hi t => ?_⟩
    constructor
    · intro filled
      exact absurd filled.lt_size (Nat.not_lt_zero i)
    · rintro ⟨before, op, later, split, -⟩
      cases before <;> cases split
  | append_singleton ops op ih =>
    obtain ⟨nested, -⟩ := nested.snoc
    rw [List.length_append, List.length_singleton] at short
    obtain ⟨inOrder, size, filled⟩ := ih nested (Nat.lt_of_succ_lt short)
    refine ⟨?_, ?_, fun i hi t => ?_⟩
    · rw [ran_snoc]
      exact inOrder.apply op
    · rw [ran_snoc, List.length_append, List.length_singleton]
      exact Nat.le_trans (size_apply_le _ op) (Nat.succ_le_succ size)
    · rw [ran_snoc, inOrder.filled_apply, living_snoc nested, filled i hi t]
      apply or_congr_left
      constructor
      · rintro ⟨-, made⟩
        exact made
      · rintro ⟨answer, epoch⟩
        have low : (ran table ops).nextSlot < 0x80000000 :=
          Nat.lt_of_le_of_lt (Nat.le_trans inOrder.nextSlot_le size) (Nat.lt_of_succ_lt short)
        exact ⟨refOf_injective hi low (answer_ref answer), answer, epoch⟩

variable {before' later' : List Operation} {op' : Operation} {bytes bytes' : Bytes} {r' : StringRef}

theorem exists_slot (nested : Nested 0 ops) (short : ops.length < 0x80000000)
    (answer : (ran table ops).answer? op = some (r, bytes)) :
    (ran table ops).nextSlot < 0x80000000 ∧ r = refOf (ran table ops).nextSlot := by
  obtain ⟨inOrder, size, -⟩ := accords table nested short
  exact ⟨Nat.lt_of_le_of_lt (Nat.le_trans inOrder.nextSlot_le size) short, answer_ref answer⟩

theorem Living.filled (nested : Nested 0 ops) (short : ops.length < 0x80000000)
    (h : Living table ops r t) : ∃ i < 0x80000000, r = refOf i ∧ (ran table ops).Filled i t := by
  obtain ⟨before, op, later, rfl, answer, epoch, lives⟩ := h
  have fewer : before.length < 0x80000000 := by
    rw [List.length_append] at short
    omega
  obtain ⟨low, rfl⟩ := exists_slot (nested_append.mp nested).1 fewer answer
  refine ⟨_, low, rfl, ?_⟩
  apply ((accords table nested short).filled _ low t).mpr
  exact ⟨before, op, later, rfl, answer, epoch, lives⟩

/-- While a reference is in its lifetime no operation returns it. -/
theorem Living.fresh (nested : Nested 0 ops) (short : ops.length < 0x80000000)
    (h : Living table ops r t) (answer : (ran table ops).answer? op = some (r', bytes)) : r' ≠ r := by
  obtain ⟨i, hi, rfl, filled⟩ := h.filled nested short
  obtain ⟨low, rfl⟩ := exists_slot nested short answer
  intro same
  rw [← refOf_injective low hi same] at filled
  exact (accords table nested short).inOrder.nextSlot_vacant t filled

theorem split_cases (h : before ++ op :: later = before' ++ op' :: later') :
    (before = before' ∧ op = op' ∧ later = later') ∨
      (∃ middle, before' = before ++ op :: middle ∧ later = middle ++ op' :: later') ∨
      ∃ middle, before = before' ++ op' :: middle ∧ later' = middle ++ op :: later := by
  rcases List.append_eq_append_iff.mp h with ⟨part, hb, hl⟩ | ⟨part, hb, hl⟩
  · cases part with
    | nil =>
      cases hl
      rw [List.append_nil] at hb
      exact .inl ⟨hb.symm, rfl, rfl⟩
    | cons first middle =>
      cases hl
      exact .inr (.inl ⟨middle, hb, rfl⟩)
  · cases part with
    | nil =>
      cases hl
      rw [List.append_nil] at hb
      exact .inl ⟨hb, rfl, rfl⟩
    | cons first middle =>
      cases hl
      exact .inr (.inr ⟨middle, hb, rfl⟩)

/-- A reference that is returned again is past the lifetime that it had. -/
theorem not_lives_of_again {middle : List Operation} (nested : Nested 0 (before ++ op :: middle))
    (short : (before ++ op :: middle).length < 0x80000000)
    (answer : (ran table before).answer? op = some (r, bytes))
    (again : (ran table (before ++ op :: middle)).answer? op' = some (r, bytes')) :
    ¬ Lives (level 0 before) (middle ++ later) := by
  intro lives
  have living : Living table (before ++ op :: middle) r ⟨bytes, (ran table before).epoch⟩ :=
    ⟨before, op, middle, rfl, answer, rfl, lives.of_append⟩
  exact living.fresh nested short again rfl

/-- A reference is in its lifetime from one place only. -/
theorem lives_from_one_place (nested : Nested 0 ops) (short : ops.length < 0x80000000)
    (split : ops = before ++ op :: later) (split' : ops = before' ++ op' :: later')
    (answer : (ran table before).answer? op = some (r, bytes))
    (answer' : (ran table before').answer? op' = some (r, bytes'))
    (lives : Lives (level 0 before) later) (lives' : Lives (level 0 before') later') :
    before = before' ∧ op = op' ∧ later = later' := by
  have earlier {xs ys : List Operation} (h : ops = xs ++ ys) :
      Nested 0 xs ∧ xs.length < 0x80000000 := by
    subst h
    rw [List.length_append] at short
    exact ⟨(nested_append.mp nested).1, by omega⟩
  rcases split_cases (split.symm.trans split') with same | ⟨middle, rfl, rfl⟩ | ⟨middle, rfl, rfl⟩
  · exact same
  · obtain ⟨nested, short⟩ := earlier split'
    exact absurd lives (not_lives_of_again nested short answer answer')
  · obtain ⟨nested, short⟩ := earlier split
    exact absurd lives' (not_lives_of_again nested short answer' answer)

theorem livingAt?_eq_some {k : Nat} (h : livingAt? table ops k = some r) :
    ∃ op later bytes, ops = ops.take k ++ op :: later ∧
      (ran table (ops.take k)).answer? op = some (r, bytes) ∧ Lives (level 0 (ops.take k)) later := by
  unfold livingAt? at h
  split at h
  · cases h
  · rename_i op later hd
    split at h
    · rename_i lives
      obtain ⟨⟨r', bytes⟩, answer, rfl⟩ := Option.map_eq_some_iff.mp h
      refine ⟨op, later, bytes, ?_, answer, lives⟩
      rw [← hd, List.take_append_drop]
    · cases h

theorem mem_living : r ∈ living table ops ↔ ∃ t, Living table ops r t := by
  rw [living, List.mem_filterMap]
  constructor
  · rintro ⟨k, -, hk⟩
    obtain ⟨op, later, bytes, split, answer, lives⟩ := livingAt?_eq_some hk
    exact ⟨⟨bytes, (ran table (ops.take k)).epoch⟩, ops.take k, op, later, split, answer, rfl, lives⟩
  · rintro ⟨t, before, op, later, rfl, answer, -, lives⟩
    refine ⟨before.length, ?_, ?_⟩
    · simp
    · simp only [livingAt?, List.drop_left, List.take_left, if_pos lives, answer, Option.map_some]

theorem nodup_living (nested : Nested 0 ops) (short : ops.length < 0x80000000) :
    (living table ops).Nodup := by
  rw [living, List.Nodup, List.pairwise_filterMap]
  apply List.pairwise_lt_range.imp_of_mem
  rintro k k' hk hk' less r answer r' answer' rfl
  obtain ⟨op, later, bytes, split, answer, lives⟩ := livingAt?_eq_some answer
  obtain ⟨op', later', bytes', split', answer', lives'⟩ := livingAt?_eq_some answer'
  have same := lives_from_one_place nested short split split' answer answer' lives lives'
  have lengths := congrArg List.length same.1
  rw [List.mem_range] at hk hk'
  rw [List.length_take, List.length_take] at lengths
  omega

theorem count_living (nested : Nested 0 ops) (short : ops.length < 0x80000000) :
    (ran table ops).count = (living table ops).length := by
  obtain ⟨inOrder, size, filled⟩ := accords table nested short
  have low {i : Nat} (h : i ∈ (ran table ops).filledSlots) : i < 0x80000000 := by
    obtain ⟨t, held⟩ := mem_filledSlots.mp h
    exact Nat.lt_trans (Nat.lt_of_lt_of_le held.lt_size size) short
  have distinct : ((ran table ops).filledSlots.map refOf).Nodup := by
    apply List.Nodup.map_on _ (nodup_filledSlots _)
    exact fun i hi j hj same => refOf_injective (low hi) (low hj) same
  have same : (living table ops).Perm ((ran table ops).filledSlots.map refOf) := by
    apply (List.perm_ext_iff_of_nodup (nodup_living nested short) distinct).mpr
    intro r
    rw [mem_living, List.mem_map]
    constructor
    · rintro ⟨t, living⟩
      obtain ⟨i, -, rfl, held⟩ := living.filled nested short
      exact ⟨i, mem_filledSlots.mpr ⟨t, held⟩, rfl⟩
    · rintro ⟨i, mem, rfl⟩
      obtain ⟨t, held⟩ := mem_filledSlots.mp mem
      exact ⟨t, (filled i (low mem) t).mp held⟩
  rw [inOrder.count_eq, same.length_eq, List.length_map]

/-- Until it is returned again, the reference of a string past its lifetime is refused. -/
theorem get_of_ended (nested : Nested 0 (before ++ op :: later))
    (short : (before ++ op :: later).length < 0x80000000)
    (answer : (ran table before).answer? op = some (r, bytes))
    (ended : ¬ Lives (level 0 before) later)
    (unreturned : ∀ middle op' rest bytes', later = middle ++ op' :: rest →
      (ran table (before ++ op :: middle)).answer? op' ≠ some (r, bytes')) :
    (ran table (before ++ op :: later)).get r = .error (.invalidString r.toInt) := by
  have nestedBefore := (nested_append.mp nested).1
  have shortBefore : before.length < 0x80000000 := by
    rw [List.length_append] at short
    omega
  obtain ⟨low, rfl⟩ := exists_slot nestedBefore shortBefore answer
  apply get_eq_error _ low
  intro t held
  obtain ⟨before', op', later', split, answer', epoch, lives⟩ :=
    ((accords table nested short).filled _ low t).mp held
  rcases split_cases split with ⟨rfl, rfl, rfl⟩ | ⟨middle, rfl, rfl⟩ | ⟨middle, rfl, rfl⟩
  · exact ended lives
  · exact unreturned middle op' later' _ rfl answer'
  · exact not_lives_of_again nestedBefore shortBefore answer' answer lives

end lifetime

/-- The lifetime of transient strings, after fewer than 2^31 operations with nested runs. A reference
reads as the bytes that it was returned for as long as it is in its lifetime, and no operation returns
it then; afterwards it is refused until it is returned again; and the count is that of the references
in their lifetime. -/
theorem transient_lifetime (table : Array UInt8) (ops : List Operation) (nested : Nested 0 ops)
    (short : ops.length < 0x80000000) :
    (∀ before op later r bytes, ops = before ++ op :: later →
      (ran table before).answer? op = some (r, bytes) →
      (Lives (level 0 before) later →
        (ran table ops).get r = .ok bytes ∧
          ∀ op' r' bytes', (ran table ops).answer? op' = some (r', bytes') → r' ≠ r) ∧
      (¬ Lives (level 0 before) later →
        (∀ middle op' rest bytes', later = middle ++ op' :: rest →
          (ran table (before ++ op :: middle)).answer? op' ≠ some (r, bytes')) →
        (ran table ops).get r = .error (.invalidString r.toInt))) ∧
    (living table ops).Nodup ∧ (ran table ops).count = (living table ops).length := by
  refine ⟨?_, nodup_living nested short, count_living nested short⟩
  rintro before op later r bytes rfl answer
  refine ⟨?_, fun ended unreturned => get_of_ended nested short answer ended unreturned⟩
  intro lives
  have living : Living table (before ++ op :: later) r ⟨bytes, (ran table before).epoch⟩ :=
    ⟨before, op, later, rfl, answer, rfl, lives⟩
  refine ⟨?_, fun op' r' bytes' again => living.fresh nested short again⟩
  obtain ⟨i, low, rfl, held⟩ := living.filled nested short
  exact held.get_eq low

def innerRun : List Operation := [.push [1], .beginRun, .push [2], .beginRun]

/-- What is made of both strings in the inner run lasts to the end of the outer one, and no longer than
up to the next. -/
theorem innerRun_lifetime :
    Nested 0 (innerRun ++ .concat (-1) (-2) :: [.endRun, .endRun, .beginRun]) ∧
      (ran #[] (innerRun ++ .concat (-1) (-2) :: [.endRun, .endRun])).get (-3) = .ok [1, 2] ∧
      (ran #[] (innerRun ++ .concat (-1) (-2) :: [.endRun, .endRun])).count = 3 ∧
      (ran #[] (innerRun ++ .concat (-1) (-2) :: [.endRun, .endRun, .beginRun])).get (-3) =
        .error (.invalidString (-3)) := by
  have nested : Nested 0 (innerRun ++ .concat (-1) (-2) :: [.endRun, .endRun, .beginRun]) := by decide
  have returned : (ran #[] innerRun).answer? (.concat (-1) (-2)) = some (-3, [1, 2]) := by
    decide +kernel
  have three : (living #[] (innerRun ++ .concat (-1) (-2) :: [.endRun, .endRun])).length = 3 := by
    decide +kernel
  obtain ⟨lasting, -, count⟩ := transient_lifetime #[]
    (innerRun ++ .concat (-1) (-2) :: [.endRun, .endRun]) (by decide) (by decide)
  obtain ⟨ending, -⟩ := transient_lifetime #[]
    (innerRun ++ .concat (-1) (-2) :: [.endRun, .endRun, .beginRun]) nested (by decide)
  have kept := (lasting innerRun _ _ (-3) [1, 2] rfl returned).1 (by decide)
  refine ⟨nested, kept.1, count.trans three, ?_⟩
  apply (ending innerRun _ _ (-3) [1, 2] rfl returned).2 (by decide)
  intro middle op' rest bytes' split again
  have mem : op' ∈ [Operation.endRun, .endRun, .beginRun] := by
    rw [split]
    exact List.mem_append_right _ List.mem_cons_self
  simp only [List.mem_cons, List.not_mem_nil, or_false] at mem
  rcases mem with rfl | rfl | rfl <;> cases again

end StringArena
end GameBytecode
