import GameBytecode.Proofs.ArgumentWiring
import GameBytecode.Proofs.OperandSpans

/-!
What a statement takes its operands for. An operand is a signed number where its opcode declares one,
and the address of a global elsewhere. The count of a move is declared a signed number as well, and
taken as it is.
-/
namespace GameBytecode

namespace Opcode

/-- Whether the opcode takes an operand for a signed number. -/
def signs : Opcode → Slot → Bool
  | move, _ => false
  | op, slot => op.operands.get slot = .immediate

theorem signs_eq (op : Opcode) (slot : Slot) : op.signs slot = match op, slot with
    | loadNear _, .b | storeNear _, .c | advanceNear, .b | branch _, .b | goto, .a => true
    | _, _ => false := by
  cases op with
  | arithmetic kind f => cases kind <;> cases slot <;> rfl
  | complement kind => cases kind <;> cases slot <;> rfl
  | compare kind f => cases kind <;> cases f <;> cases slot <;> rfl
  | same kind equal => cases kind <;> cases slot <;> rfl
  | connective kind f => cases kind <;> cases slot <;> rfl
  | isEmpty kind => cases kind <;> cases slot <;> rfl
  | load cell | store cell | storeThrough cell | loadAt cell | loadNear cell | storeAt cell
  | storeNear cell | address cell => cases cell <;> cases slot <;> rfl
  | _ => cases slot <;> rfl

/-- The number that the opcode takes an operand for. -/
def reading (op : Opcode) (slot : Slot) (operand : UInt16) : Int :=
  if op.signs slot then signedOperand operand else operand.toNat

def readings (op : Opcode) (s : Statement) (slot : Slot) : Int := op.reading slot (s.slot slot)

/-- Whether a number can be written in a slot of the opcode: it is one that an operand can be taken
for. -/
def Represents (op : Opcode) (slot : Slot) (n : Int) : Prop :=
  if op.signs slot then -0x8000 ≤ n ∧ n < 0x8000 else 0 ≤ n ∧ n < 0x10000

instance (op : Opcode) (slot : Slot) (n : Int) : Decidable (op.Represents slot n) :=
  inferInstanceAs
    (Decidable (if op.signs slot then -0x8000 ≤ n ∧ n < 0x8000 else 0 ≤ n ∧ n < 0x10000))

end Opcode

/-- The operand as which the assembler writes a number. -/
def operandOf (n : Int) : UInt16 := UInt16.ofNat (n % 0x10000).toNat

theorem operandOf_toNat (n : Int) : ((operandOf n).toNat : Int) = n % 0x10000 := by
  have small : (n % 0x10000).toNat < UInt16.size := by
    have positive := Int.emod_nonneg n (b := 0x10000) (by decide)
    have less := Int.emod_lt_of_pos n (b := 0x10000) (by decide)
    change (n % 0x10000).toNat < 0x10000
    omega
  rw [operandOf, UInt16.toNat_ofNat_of_lt' small]
  omega

theorem operandOf_natCast (operand : UInt16) : operandOf operand.toNat = operand := by
  have wrapped := operandOf_toNat operand.toNat
  have less := operand.toNat_lt
  apply UInt16.toNat_inj.mp
  omega

theorem signedOperand_eq (operand : UInt16) :
    signedOperand operand =
      if operand.toNat < 0x8000 then (operand.toNat : Int) else (operand.toNat : Int) - 0x10000 := by
  change operand.toBitVec.toInt = _
  rw [BitVec.toInt_eq_toNat_cond]
  change (if 2 * operand.toNat < 0x10000 then (operand.toNat : Int) else operand.toNat - 0x10000) = _
  split <;> split <;> omega

namespace Opcode
variable (op : Opcode) (slot : Slot)

theorem reading_represents (operand : UInt16) : op.Represents slot (op.reading slot operand) := by
  have less : operand.toNat < 0x10000 := operand.toNat_lt
  unfold reading Represents
  cases op.signs slot with
  | true =>
    simp only [if_true, signedOperand_eq]
    split <;> omega
  | false =>
    simp only [Bool.false_eq_true, if_false]
    omega

theorem reading_emod (operand : UInt16) :
    op.reading slot operand % 0x10000 = operand.toNat := by
  have less : operand.toNat < 0x10000 := operand.toNat_lt
  unfold reading
  cases op.signs slot with
  | true =>
    simp only [if_true, signedOperand_eq]
    split <;> omega
  | false =>
    simp only [Bool.false_eq_true, if_false]
    omega

/-- A slot does not hold two numbers that are written as the same operand. -/
theorem Represents.eq_of_emod {op : Opcode} {slot : Slot} {n n' : Int} (h : op.Represents slot n)
    (h' : op.Represents slot n') (same : n % 0x10000 = n' % 0x10000) : n = n' := by
  unfold Represents at h h'
  cases signs : op.signs slot with
  | true =>
    simp only [signs, if_true] at h h'
    omega
  | false =>
    simp only [signs, Bool.false_eq_true, if_false] at h h'
    omega

/-- What a number is written as is taken for that number if the slot can hold it, and otherwise for
one that it can hold. -/
theorem reading_operandOf (n : Int) : op.reading slot (operandOf n) % 0x10000 = n % 0x10000 ∧
    (op.reading slot (operandOf n) = n ↔ op.Represents slot n) := by
  have wraps : op.reading slot (operandOf n) % 0x10000 = n % 0x10000 :=
    (op.reading_emod slot _).trans (operandOf_toNat n)
  refine ⟨wraps, fun same => ?_, fun held => ?_⟩
  · rw [← same]
    exact op.reading_represents slot _
  · exact (op.reading_represents slot _).eq_of_emod held wraps

end Opcode

namespace Access

/-- An access is not at an operand that the opcode takes for a signed number. -/
def Unsigned (op : Opcode) (x : Access) : Prop :=
  ∀ slot, x.place = .operand slot → op.signs slot = false

theorem Unsigned.operand {op : Opcode} {slot : Opcode.Slot} {count : Nat}
    (h : op.signs slot = false) : Unsigned op ⟨.operand slot, count⟩ := by
  rintro _ ⟨⟩
  exact h

theorem Unsigned.found {op : Opcode} (address : Int) (count : Nat) :
    Unsigned op ⟨.found address, count⟩ :=
  fun _ h => Place.noConfusion h

end Access

namespace Place

/-- The address of a place, with numbers for operands. -/
def addressAt (w : Opcode.Slot → Int) : Place → Int
  | operand slot => w slot
  | bound address => address
  | found address => address

end Place

namespace Plan
variable {α : Type} {w w' : Opcode.Slot → Int}

/-- Carries a plan out with numbers for operands. -/
def runAt (w : Opcode.Slot → Int) : Plan α → Store → Except Fault α × Store
  | done a, st => (.ok a, st)
  | fail e, st => (.error e, st)
  | read place count k, st =>
    match st.memory.slice (place.addressAt w) count with
    | .error e => (.error e, st)
    | .ok ws => (k ws).runAt w st
  | write place words k, ⟨memory, strings⟩ =>
    match memory.resolve (place.addressAt w) words.length with
    | .error e => (.error e, ⟨memory, strings⟩)
    | .ok i => k.runAt w ⟨⟨Memory.setWords memory.words i words⟩, strings⟩
  | observe f k, st =>
    match f st.strings with
    | .error e => (.error e, st)
    | .ok answer => (k answer).runAt w st
  | concat r t k, ⟨memory, strings⟩ =>
    match strings.concat r t with
    | .error e => (.error e, ⟨memory, strings⟩)
    | .ok (joined, strings) => (k joined).runAt w ⟨memory, strings⟩

/-- A plan that reaches no operand where the numbers are not the operands of a statement is carried out
as for the statement. -/
theorem run_eq_runAt {s : Statement} {p : Plan α}
    (same : p.All fun x => x.place.address s = x.place.addressAt w) (st : Store) :
    p.run s st = p.runAt w st := by
  induction p generalizing st with
  | done a => rfl
  | fail e => rfl
  | read place count k ih =>
    obtain ⟨here, later⟩ := same
    have here : place.address s = place.addressAt w := here
    simp only [run, runAt, here]
    cases hs : st.memory.slice (place.addressAt w) count with
    | error e => rfl
    | ok ws => exact ih ws (later ws (Memory.length_slice hs)) st
  | write place words k ih =>
    obtain ⟨memory, strings⟩ := st
    obtain ⟨here, later⟩ := same
    have here : place.address s = place.addressAt w := here
    simp only [run, runAt, here]
    cases memory.resolve (place.addressAt w) words.length with
    | error e => rfl
    | ok i => exact ih later _
  | observe f k ih =>
    simp only [run, runAt]
    cases f st.strings with
    | error e => rfl
    | ok answer => exact ih answer (same answer) st
  | concat r t k ih =>
    obtain ⟨memory, strings⟩ := st
    simp only [run, runAt]
    cases strings.concat r t with
    | error e => rfl
    | ok joined => exact ih joined.1 (same joined.1) _

theorem All.of_forall {P : Access → Prop} (h : ∀ x, P x) (p : Plan α) : p.All P := by
  induction p with
  | done a => trivial
  | fail e => trivial
  | read place count k ih => exact ⟨h _, fun ws _ => ih ws⟩
  | write place words k ih => exact ⟨h _, ih⟩
  | observe f k ih => exact ih
  | concat r t k ih => exact ih

theorem All.mono {P Q : Access → Prop} {p : Plan α} (hp : p.All P) (h : ∀ x, P x → Q x) :
    p.All Q := by
  induction p with
  | done a => trivial
  | fail e => trivial
  | read place count k ih => exact ⟨h _ hp.1, fun ws hw => ih ws (hp.2 ws hw)⟩
  | write place words k ih => exact ⟨h _ hp.1, ih hp.2⟩
  | observe f k ih => exact fun answer => ih answer (hp answer)
  | concat r t k ih => exact fun joined => ih joined (hp joined)

end Plan

namespace Step
open Plan

/-- The effect of an opcode with numbers for operands. -/
def written (settings : Settings) (m : Module) (index : Nat) (w : Opcode.Slot → Int) :
    Opcode → Plan Control
  | .done | .ret => return .ret (operandOf (w .a))
  | .loadNear cell => do
    let pointer ← integer .a
    copy (.found (pointer + w .b)) .c cell.width
    return .next
  | .storeNear cell => do
    let pointer ← integer .b
    copy .a (.found (pointer + w .c)) cell.width
    return .next
  | .address _ => do
    putWord .c (Word.ofSigned (w .a))
    return .next
  | .advanceNear => do
    let pointer ← word .a
    putWord .c (pointer + Word.ofSigned (w .b))
    return .next
  | .branch condition => do
    let x ← word .a
    if condition.holds x then jumpTo settings m (index + w .b) else return .next
  | .goto => jumpTo settings m (index + w .a)
  | .move => do
    copy .a .c (w .b).toNat
    return .next
  | op => effect settings m index .null op

theorem written_unsigned (settings : Settings) (m : Module) (index : Nat) (w : Opcode.Slot → Int)
    (op : Opcode) : (written settings m index w op).All (Access.Unsigned op) := by
  cases op with
  | loadNear cell =>
    have target : (Opcode.loadNear cell).signs .c = false := Opcode.signs_eq _ _
    simp only [written, integer, word, read_bind, done_bind, pure_eq, All]
    exact ⟨.operand (Opcode.signs_eq _ _), fun pointer _ =>
      .bind (copy_all (.found _ _) (.operand target)) fun _ => trivial⟩
  | storeNear cell =>
    have source : (Opcode.storeNear cell).signs .a = false := Opcode.signs_eq _ _
    simp only [written, integer, word, read_bind, done_bind, pure_eq, All]
    exact ⟨.operand (Opcode.signs_eq _ _), fun pointer _ =>
      .bind (copy_all (.operand source) (.found _ _)) fun _ => trivial⟩
  | advanceNear => exact ⟨.operand rfl, fun x _ => ⟨.operand rfl, trivial⟩⟩
  | branch condition =>
    simp only [written, word, read_bind, done_bind, pure_eq, All]
    refine ⟨.operand rfl, fun x _ => ?_⟩
    split
    · exact jumpTo_all _ _ _ _
    · trivial
  | goto => exact jumpTo_all _ _ _ _
  | _ =>
    refine .of_forall (fun x slot _ => ?_) _
    rw [Opcode.signs_eq]

theorem effect_eq_written (settings : Settings) (m : Module) (index : Nat) (s : Statement)
    (op : Opcode) : effect settings m index s op = written settings m index (op.readings s) op := by
  cases op with
  | done | ret => exact congrArg (fun value => Plan.done (Control.ret value)) (operandOf_natCast s.a).symm
  | address cell =>
    have same : s.a.toUInt32 = Word.ofSigned (s.a.toNat : Int) := by
      rw [Word.ofSigned_natCast]
      exact (UInt32.ofNat_uInt16ToNat s.a).symm
    have reading : (Opcode.address cell).readings s .a = s.a.toNat := by cases cell <;> rfl
    simp only [effect, written, reading, same]
  | complement kind | isEmpty kind => cases kind <;> rfl
  | compare kind f => cases kind <;> rfl
  | same kind equal => cases kind <;> rfl
  | _ => rfl

/-- A statement does what its opcode does with the numbers that the opcode takes the operands for. -/
theorem step_readings {settings : Settings} {m : Module} {index : Nat} {s : Statement} {op : Opcode}
    (opcode : Opcode.ofCode? s.op = some op) :
    step settings m index s = (written settings m index (op.readings s) op).runAt (op.readings s) := by
  funext st
  have taken (x : Access) (unsigned : x.Unsigned op) :
      x.place.address s = x.place.addressAt (op.readings s) := by
    obtain ⟨place, count⟩ := x
    cases place with
    | operand slot =>
      change ((s.slot slot).toNat : Int) = op.reading slot (s.slot slot)
      rw [Opcode.reading, unsigned slot rfl]
      rfl
    | bound address | found address => rfl
  simp only [step, opcode, effect_eq_written]
  exact run_eq_runAt ((written_unsigned settings m index (op.readings s) op).mono taken) st

end Step
end GameBytecode
