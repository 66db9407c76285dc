import GameBytecode.Proofs.OperandReadings
import GameBytecode.Proofs.StatementTable

/-!
Numbers in the listing of a statement. An operand that is listed as a number or as a target is shown as
the number that the statement is carried out with, except for the count of a move: it is listed as a
signed number and taken as it is.
-/
namespace GameBytecode

namespace Text

/-- Text that ends in a character that is not blank, so nothing is trimmed from it. -/
def Solid (s : String) : Prop := ∃ front last, s.toList = front ++ [last] ∧ isBlank last = false

variable {s t : String}

theorem Solid.append (h : Solid t) (s : String) : Solid (s ++ t) := by
  obtain ⟨front, last, chars, visible⟩ := h
  refine ⟨s.toList ++ front, last, ?_, visible⟩
  rw [String.toList_append, chars, List.append_assoc]

theorem Solid.trimEnd_append (h : Solid s) (t : String) : trimEnd (s ++ t) = s ++ trimEnd t := by
  obtain ⟨front, last, chars, visible⟩ := h
  have kept : s.toList.reverse.dropWhile isBlank = s.toList.reverse := by
    rw [chars, List.reverse_append, List.reverse_singleton, List.singleton_append,
      List.dropWhile_cons, if_neg (Bool.eq_false_iff.mp visible)]
  rw [trimEnd, trimEnd, String.toList_append, List.reverse_append, List.dropWhile_append, kept]
  split
  · rename_i blank
    rw [List.isEmpty_iff.mp blank, List.reverse_reverse, String.ofList_toList, List.reverse_nil,
      String.ofList_nil, String.append_empty]
  · rw [List.reverse_append, List.reverse_reverse, String.ofList_append, String.ofList_toList]

theorem Solid.append_ne_empty (h : Solid s) (t : String) : s ++ t ≠ "" := by
  obtain ⟨front, last, chars, -⟩ := h
  intro empty
  have none : s.toList ++ t.toList = [] := by rw [← String.toList_append, empty]; rfl
  rw [chars] at none
  simp at none

theorem isBlank_of_isDigit {c : Char} (h : c.isDigit = true) : isBlank c = false := by
  have digits : 48 ≤ c.toNat ∧ c.toNat ≤ 57 := by
    simp only [Char.isDigit, Bool.and_eq_true, decide_eq_true_eq, ge_iff_le, UInt32.le_iff_toNat_le]
      at h
    exact h
  simp only [isBlank, Bool.or_eq_false_iff, Bool.and_eq_false_iff, decide_eq_false_iff_not,
    beq_eq_false_iff_ne]
  omega

theorem solid_repr (n : Nat) : Solid (Nat.repr n) := by
  obtain ⟨front, last, chars⟩ : ∃ front last, Nat.toDigits 10 n = front ++ [last] :=
    ⟨_, _, (List.dropLast_concat_getLast Nat.toDigits_ne_nil).symm⟩
  have digit : last.isDigit = true := by
    apply Nat.isDigit_of_mem_toDigits (b := 10) (n := n) (by decide) (by decide)
    rw [chars]
    exact List.mem_append_right _ List.mem_cons_self
  refine ⟨front, last, ?_, isBlank_of_isDigit digit⟩
  rw [Nat.repr, String.toList_ofList, chars]

theorem solid_toString (i : Int) : Solid (toString i) := by
  cases i with
  | ofNat n => exact solid_repr n
  | negSucc n => exact (solid_repr n.succ).append "-"

end Text

namespace Listing
open Text

theorem solid_padInt (width : Nat) (i : Int) : Solid (padInt width i) := by
  rw [padInt]
  split
  · exact ((solid_repr _).append _).append _
  · exact (solid_repr _).append _

section line
variable (m : Module) (memory : Memory) (index : Nat) (s : Statement) (op : Opcode)

/-- A piece of a form, filled in for a statement. -/
def filled : Opcode.Piece → String
  | .text t => t
  | .operand style slot => operand m memory index style (s.slot slot) (op.operands.get slot)

def filledAll (form : Opcode.Form) : String := String.join (form.map (filled m memory index s op))

theorem operands_eq :
    operands m memory index s op = trimEnd (filledAll m memory index s op op.form) := rfl

/-- The line of a statement has a text between two parts of its form. -/
def Shows (before : Opcode.Form) (text : String) (after : Opcode.Form) : Prop :=
  line m memory index = padNat 5 index ++ " " ++ op.mnemonic ++ " " ++
    filledAll m memory index s op before ++ text ++ trimEnd (filledAll m memory index s op after)

end line

variable {m : Module} {memory : Memory} {index : Nat} {s : Statement} {op : Opcode}
  {before after : Opcode.Form} {style : Opcode.Style} {slot : Opcode.Slot}

theorem mem_of_parts (parts : op.form = before ++ .operand style slot :: after) :
    .operand style slot ∈ op.form := by
  rw [parts]
  exact List.mem_append_right _ List.mem_cons_self

theorem line_shows (there : m.statements[index]? = some s) (opcode : Opcode.ofCode? s.op = some op)
    (parts : op.form = before ++ .operand style slot :: after) {text : String}
    (filled : operand m memory index style (s.slot slot) (op.operands.get slot) = text)
    (solid : Solid text) : Shows m memory index s op before text after := by
  have shown : operands m memory index s op =
      filledAll m memory index s op before ++ text ++
        trimEnd (filledAll m memory index s op after) := by
    rw [operands_eq, parts, ← (solid.append _).trimEnd_append, filledAll, List.map_append,
      List.map_cons, String.join_append, String.join_cons, ← String.append_assoc, Listing.filled,
      filled]
    rfl
  have some : operands m memory index s op ≠ "" := by
    rw [shown]
    exact (solid.append _).append_ne_empty _
  simp only [Shows, line, there, opcode, if_neg some]
  simp only [shown, String.append_assoc]

end Listing

namespace Opcode
variable {op : Opcode} {slot : Slot}

/-- What is listed as a number is taken for a signed number, or it is the count of a move. -/
theorem signs_of_number (h : .operand .number slot ∈ op.form) :
    op.signs slot = true ∨ op = .move ∧ slot = .b := by
  cases op with
  | branch | loadNear | advanceNear | storeNear | goto | move =>
    cases slot <;> simp [form, ownForm?, signs_eq] at h ⊢
  | _ => simp [form, ownForm?, defaultForm] at h

/-- What is listed as a target is the operand of a relative branch. -/
theorem branch_of_target (h : .operand .target slot ∈ op.form) :
    (∃ condition, op = .branch condition) ∧ slot = .b ∨ op = .goto ∧ slot = .a := by
  cases op with
  | branch | goto => cases slot <;> simp [form, ownForm?] at h ⊢
  | _ => simp [form, ownForm?, defaultForm] at h

theorem readings_of_target (h : .operand .target slot ∈ op.form) (s : Statement) :
    op.readings s slot = signedOperand (s.slot slot) := by
  rcases branch_of_target h with ⟨⟨condition, rfl⟩, rfl⟩ | ⟨rfl, rfl⟩ <;> rfl

theorem branchTarget?_of_target {index : Nat} {s : Statement} (opcode : ofCode? s.op = some op)
    (h : .operand .target slot ∈ op.form) :
    s.branchTarget? index = some (index + op.readings s slot) := by
  unfold Statement.branchTarget?
  rw [opcode]
  rcases branch_of_target h with ⟨⟨condition, rfl⟩, rfl⟩ | ⟨rfl, rfl⟩ <;> rfl

end Opcode

/-- What is printed for an operand is what it is taken for, except for large counts of a move. -/
theorem signedOperand_eq_readings_iff {op : Opcode} {slot : Opcode.Slot}
    (listed : .operand .number slot ∈ op.form) (s : Statement) :
    signedOperand (s.slot slot) = op.readings s slot ↔ ¬ (op = .move ∧ 0x8000 ≤ s.b.toNat) := by
  rcases Opcode.signs_of_number listed with signed | ⟨rfl, rfl⟩
  · have other : op ≠ .move := by
      rintro rfl
      cases signed
    simp only [Opcode.readings, Opcode.reading, signed, if_true, other, false_and, not_false_eq_true]
  · change signedOperand s.b = s.b.toNat ↔ _
    rw [signedOperand_eq]
    simp only [true_and, Nat.not_le]
    split <;> omega

theorem step_move {settings : Settings} {m : Module} {index : Nat} {s : Statement} {st : Store}
    (opcode : Opcode.ofCode? s.op = some .move)
    (source : s.a.toNat + s.b.toNat ≤ st.memory.words.size)
    (target : s.c.toNat + s.b.toNat ≤ st.memory.words.size) :
    ∃ memory : Memory, step settings m index s st = (.ok .next, ⟨memory, st.strings⟩) ∧
      ∀ i < s.b.toNat, memory.words[s.c.toNat + i]? = st.memory.words[s.a.toNat + i]? := by
  obtain ⟨memory, strings⟩ := st
  have source : s.a.toNat + s.b.toNat ≤ memory.words.size := source
  have read := Memory.slice_ok source
  have length := Memory.length_slice read
  have written : memory.resolve s.c.toNat
      (memory.words.extract s.a.toNat (s.a.toNat + s.b.toNat)).toList.length = .ok s.c.toNat := by
    rw [length, Memory.resolve_natCast, if_pos target]
  refine ⟨⟨Memory.setWords memory.words s.c.toNat
    (memory.words.extract s.a.toNat (s.a.toNat + s.b.toNat)).toList⟩, ?_, ?_⟩
  · simp only [step, opcode, Step.effect, Plan.copy, Plan.put, Plan.read_bind, Plan.write_bind,
      Plan.done_bind, Plan.pure_eq, Plan.run, show Place.a.address s = s.a.toNat from rfl,
      show Place.c.address s = s.c.toNat from rfl, read, written]
  · intro i lt
    rw [Memory.getElem?_setWords _ _ _ _ (by rw [length]; exact target),
      if_pos ⟨Nat.le_add_right _ _, by rw [length]; omega⟩, Nat.add_sub_cancel_left,
      Array.getElem?_toList, Array.getElem?_extract, if_pos (by omega)]

namespace Machine
variable {v : Machine} {frame : RunFrame} {executed index : Nat} {s : Statement} {target : Int}

/-- Where a run goes from a relative branch that is taken: to its target, unless that is refused or the
run has done all that it may. -/
def branchTurn (frame : RunFrame) (executed : Nat) (bounds : Bool) (target : Int) : Turn :=
  if frame.budget.any (· ≤ executed) then .fault (.runawayLoop (frame.budget.getD 0))
  else if bounds && (target < 0 || frame.program.statements.size ≤ target) then
    .fault (.invalidJump target)
  else .go target

theorem turn_taken (there : frame.program.statements[index]? = some s)
    (ht : s.branchTarget? index = some target) (taken : s.Takes v.store.memory) :
    (v.turn frame executed index).1 =
      branchTurn frame executed v.settings.boundsCheck target := by
  unfold turn branchTurn
  split
  · rfl
  rw [if_neg (Int.not_lt.mpr (Int.natCast_nonneg index)), Int.toNat_natCast, there]
  simp only [act_eq, record_settings, record_store, step_taken ht taken, Step.jumpTo]
  generalize (v.settings.boundsCheck &&
    (decide (target < 0) || decide (frame.program.statements.size ≤ target))) = refused
  cases refused <;> rfl

end Machine

namespace Listing
variable {m : Module} {index : Nat} {s : Statement} {op : Opcode}

/-- The listing and the statements agree on numbers. A statement does what its opcode does with its
readings. What is listed as a number is printed in full, and is the reading, unless it is the count of
a move and its top bit is set, when 65536 too little is printed. What is listed as a target is
printed in full, and is where a run goes if the branch is taken. -/
theorem numbers_listed (memory : Memory) (there : m.statements[index]? = some s)
    (opcode : Opcode.ofCode? s.op = some op) :
    (∀ settings, step settings m index s =
      (Step.written settings m index (op.readings s) op).runAt (op.readings s)) ∧
    (∀ before slot after, op.form = before ++ .operand .number slot :: after →
      Shows m memory index s op before (toString (signedOperand (s.slot slot))) after ∧
      (signedOperand (s.slot slot) = op.readings s slot ↔
        ¬ (op = .move ∧ 0x8000 ≤ s.b.toNat))) ∧
    ∀ before slot after, op.form = before ++ .operand .target slot :: after →
      Shows m memory index s op before (padInt 5 (index + op.readings s slot)) after ∧
      ∀ (v : Machine) (frame : RunFrame) (executed : Nat), frame.program = m →
        s.Takes v.store.memory → (v.turn frame executed index).1 =
          Machine.branchTurn frame executed v.settings.boundsCheck
            (index + op.readings s slot) := by
  refine ⟨fun settings => Step.step_readings opcode, ?_, ?_⟩
  · intro before slot after parts
    have listed : .operand .number slot ∈ op.form := mem_of_parts parts
    exact ⟨line_shows there opcode parts rfl (Text.solid_toString _),
      signedOperand_eq_readings_iff listed s⟩
  · intro before slot after parts
    have listed : .operand .target slot ∈ op.form := mem_of_parts parts
    constructor
    · rw [Opcode.readings_of_target listed]
      exact line_shows there opcode parts rfl (solid_padInt _ _)
    · rintro v frame executed rfl taken
      exact Machine.turn_taken there (Opcode.branchTarget?_of_target opcode listed) taken

def longMoveImage : Text.Bytes :=
  { Builder.empty with
    statements := #[.null, ⟨Opcode.goto.code, 0xffff, 0, 0⟩, ⟨Opcode.move.code, 28, 0x8000, 29⟩]
    globals := Array.replicate 30 0 : Builder }.bytes

theorem longMoveImage_loads :
    (Machine.load longMoveImage 0 0 { boundsCheck := true }).toOption.isSome := by decide +kernel

def longMove : Machine :=
  (Machine.load longMoveImage 0 0 { boundsCheck := true }).toOption.get longMoveImage_loads

/-- The branch is listed with its distance and its target, and goes there. -/
theorem longMove_listed :
    Shows longMove.program ⟨#[]⟩ 1 ⟨Opcode.goto.code, 0xffff, 0, 0⟩ .goto [.text "branch "] "-1"
      [.text " (", .operand .target .a, .text ")"] ∧
    Shows longMove.program ⟨#[]⟩ 1 ⟨Opcode.goto.code, 0xffff, 0, 0⟩ .goto
      [.text "branch ", .operand .number .a, .text " ("] "00000" [.text ")"] ∧
    (longMove.turn ⟨longMove.program, 0, none⟩ 0 (1 : Nat)).1 = .go 0 := by
  have there : longMove.program.statements[1]? = some ⟨Opcode.goto.code, 0xffff, 0, 0⟩ := by
    decide +kernel
  have opcode : Opcode.ofCode? Opcode.goto.code = some .goto := by decide +kernel
  obtain ⟨-, numbers, targets⟩ := numbers_listed ⟨#[]⟩ there opcode
  obtain ⟨number, -⟩ := numbers [.text "branch "] .a _ rfl
  obtain ⟨target, goes⟩ :=
    targets [.text "branch ", .operand .number .a, .text " ("] .a [.text ")"] rfl
  have back : Opcode.goto.readings ⟨Opcode.goto.code, 0xffff, 0, 0⟩ .a = -1 := by decide
  have distance : signedOperand ((⟨Opcode.goto.code, 0xffff, 0, 0⟩ : Statement).slot .a) = -1 := back
  rw [distance, show toString (-1 : Int) = "-1" from by decide +kernel] at number
  rw [back, show padInt 5 ((1 : Nat) + -1) = "00000" from by decide +kernel] at target
  refine ⟨number, target, ?_⟩
  rw [goes longMove ⟨longMove.program, 0, none⟩ 0 (by simp only) (.goto opcode), back]
  decide +kernel

/-- The move is listed with a negative count, and copies 32768 words. -/
theorem longMove_misprinted :
    longMove.program.statements[2]? = some ⟨Opcode.move.code, 28, 0x8000, 29⟩ ∧
    line longMove.program ⟨#[]⟩ 2 = "00002 move [0028](?), -32768, [0029]" ∧
    ∀ st : Store, 32797 ≤ st.memory.words.size →
      ∃ memory : Memory, step {} longMove.program 2 ⟨Opcode.move.code, 28, 0x8000, 29⟩ st =
          (.ok .next, ⟨memory, st.strings⟩) ∧
        ∀ i < 32768, memory.words[29 + i]? = st.memory.words[28 + i]? := by
  have opcode : Opcode.ofCode? Opcode.move.code = some .move := by decide +kernel
  refine ⟨by decide +kernel, by decide +kernel, fun st large => ?_⟩
  exact step_move opcode (Nat.le_trans (by decide) large) (Nat.le_trans (by decide) large)

end Listing
end GameBytecode
