import GameBytecode.Proofs.RegionIsolation
import GameBytecode.Proofs.TransientLifetime

/-!
The frame of a statement. Most statements have checked all that they need before they change anything:
they write at most once, to the operand that takes their result, and with that they end. The others are
those that write through pointers, those that set the state of an entity, and the one that joins
strings, which adds a string to those that can be read.
-/
namespace GameBytecode

namespace Opcode

/-- Whether an opcode writes at no place but an operand: it does not write through a pointer or to an
entity, and neither calls nor returns. -/
def isDirect : Opcode → Bool
  | storeThrough _ | storeAt _ | storeNear _ | moveThrough | state | call _ | done | ret => false
  | _ => true

/-- The words that such an opcode may change: those it stores or moves to, or those of its result. -/
def destination (s : Statement) : Opcode → Access
  | store cell => ⟨.b, cell.width⟩
  | move => ⟨.c, s.b.toNat⟩
  | op => ⟨.c, op.operands.c.span⟩

/-- Whether an opcode of a statement may come to an access that writes. -/
def Targets (s : Statement) (op : Opcode) (x : Access) : Prop := op.isDirect → x = op.destination s

theorem targets_of_indirect {s : Statement} {op : Opcode} (h : op.isDirect = false) (x : Access) :
    op.Targets s x :=
  fun direct => absurd (h.symm.trans direct) Bool.false_ne_true

end Opcode

namespace Plan
variable {α β : Type} {P : Access → Prop} {s : Statement}

/-- A plan that changes nothing until it ends, and ends with one write at most, of which something is
known. -/
def Final (P : Access → Prop) : Plan α → Prop
  | done _ | fail _ => True
  | read _ count k => ∀ ws, ws.length = count → (k ws).Final P
  | write place words k => P ⟨place, words.length⟩ ∧ ∃ a, k = done a
  | observe _ k => ∀ answer, (k answer).Final P
  | concat .. => False

theorem Final.except_bind {x : Except Fault α} {f : α → Plan β} (h : ∀ a, (f a).Final P) :
    (ofExcept x >>= f).Final P := by
  cases x with
  | error e => trivial
  | ok a => exact h a

theorem Final.writes {p : Plan α} (h : p.Final P) (st : Store) : ∀ x ∈ p.writes s st, P x := by
  induction p with
  | done a =>
    intro x hx
    cases hx
  | fail e =>
    intro x hx
    cases hx
  | read place count k ih =>
    simp only [Plan.writes]
    split
    · intro x hx
      cases hx
    · rename_i hs
      exact ih _ (h _ (Memory.length_slice hs))
  | write place words k ih =>
    obtain ⟨memory, strings⟩ := st
    obtain ⟨known, a, rfl⟩ := h
    simp only [Plan.writes]
    intro x hx
    have first : x = ⟨place, words.length⟩ := by
      rcases List.mem_cons.mp hx with same | later
      · exact same
      · split at later <;> cases later
    rw [first]
    exact known
  | observe f k ih =>
    simp only [Plan.writes]
    split
    · intro x hx
      cases hx
    · exact ih _ (h _)
  | concat r t k ih => exact h.elim

/-- Such a plan leaves the strings alone, and everything if it fails. -/
theorem Final.run {p : Plan α} (h : p.Final P) (st : Store) :
    (p.run s st).2.strings = st.strings ∧
      ∀ e, (p.run s st).1 = .error e → (p.run s st).2 = st := by
  induction p with
  | done a => exact ⟨rfl, fun e _ => rfl⟩
  | fail e => exact ⟨rfl, fun e _ => rfl⟩
  | read place count k ih =>
    simp only [Plan.run]
    split
    · exact ⟨rfl, fun e _ => rfl⟩
    · rename_i hs
      exact ih _ (h _ (Memory.length_slice hs))
  | write place words k ih =>
    obtain ⟨memory, strings⟩ := st
    obtain ⟨-, a, rfl⟩ := h
    simp only [Plan.run]
    split
    · exact ⟨rfl, fun e _ => rfl⟩
    · refine ⟨rfl, ?_⟩
      intro e he
      cases he
  | observe f k ih =>
    simp only [Plan.run]
    split
    · exact ⟨rfl, fun e _ => rfl⟩
    · exact ih _ (h _)
  | concat r t k ih => exact h.elim

end Plan

namespace Step
open Plan Opcode

variable {P : Access → Prop}

theorem jumpTo_final (settings : Settings) (m : Module) (target : Int) :
    (jumpTo settings m target).Final P := by
  simp only [jumpTo]
  split <;> trivial

theorem copy_final {source target : Place} {count : Nat} {control : Control}
    (h : P ⟨target, count⟩) : (copy source target count >>= fun _ => done control).Final P := by
  intro ws hw
  exact ⟨by rw [hw]; exact h, control, rfl⟩

/-- Only the state of an entity takes more than one write, and only joining strings changes them. -/
theorem effect_final (settings : Settings) (m : Module) (index : Nat) (s : Statement) {op : Opcode}
    (joins : op ≠ .concat) (sets : op ≠ .state) :
    (effect settings m index s op).Final (op.Targets s) := by
  have result {count : Nat} (h : count = op.operands.c.span)
      (ho : op.destination s = ⟨.c, op.operands.c.span⟩) : op.Targets s ⟨.c, count⟩ := by
    intro _
    rw [ho, h]
  have ends {place : Place} {words : List Word} (h : op.Targets s ⟨place, words.length⟩) :
      (write place words (done Control.next)).Final (op.Targets s) := ⟨h, _, rfl⟩
  cases op with
  | concat => exact absurd rfl joins
  | state => exact absurd rfl sets
  | done | ret => trivial
  | goto => exact jumpTo_final ..
  | arithmetic kind f =>
    have one : 1 = kind.type.span := kind.span_type.symm
    simp only [effect, word, read_bind, done_bind, lift_eq, Final]
    exact fun x _ y _ => .except_bind fun w => ends (result one rfl)
  | complement kind =>
    have one : 1 = kind.type.span := kind.span_type.symm
    cases kind <;> exact fun x _ => ends (result one rfl)
  | connective kind f => exact fun x _ y _ => ends (result rfl rfl)
  | compare kind f =>
    cases kind with
    | float => cases f <;> exact fun x _ y _ => ends (result rfl rfl)
    | string => exact fun x _ y _ holds => ends (result rfl rfl)
    | _ => exact fun x _ y _ => ends (result rfl rfl)
  | same kind equal => cases kind <;> exact fun x _ y _ => ends (result rfl rfl)
  | isEmpty kind =>
    cases kind with
    | string => exact fun x _ holds => ends (result rfl rfl)
    | _ => exact fun x _ => ends (result rfl rfl)
  | dot | addVectors | subVectors | scaleByLeft | scaleByRight | advance =>
    exact fun x _ y _ => ends (result rfl rfl)
  | integerToFloat | floatToInteger | integerToUnsigned | unsignedToInteger | advanceNear =>
    exact fun x _ => ends (result rfl rfl)
  | load cell =>
    have wide : cell.width = cell.type.span := cell.span_type.symm
    simp only [effect, integer, word, read_bind, done_bind, lift_eq, pure_eq, Final]
    exact fun entity _ field _ => .except_bind fun address => copy_final (result wide rfl)
  | fieldAddress =>
    simp only [effect, integer, word, read_bind, done_bind, lift_eq, pure_eq, Final]
    intro entity _ field _
    split
    · trivial
    · refine .except_bind ?_
      intro address
      split
      · trivial
      · exact ends (result rfl rfl)
  | store cell => exact copy_final fun _ => rfl
  | storeThrough cell => exact fun pointer _ => copy_final (targets_of_indirect rfl _)
  | storeNear cell => exact fun pointer _ => copy_final (targets_of_indirect rfl _)
  | storeAt cell => exact fun pointer _ offset _ => copy_final (targets_of_indirect rfl _)
  | loadAt cell =>
    have wide : cell.width = cell.type.span := cell.span_type.symm
    exact fun pointer _ offset _ => copy_final (result wide rfl)
  | loadNear cell =>
    have wide : cell.width = cell.type.span := cell.span_type.symm
    exact fun pointer _ => copy_final (result wide rfl)
  | address cell => exact ends (result rfl rfl)
  | branch condition =>
    simp only [effect, word, read_bind, done_bind, pure_eq, Final]
    intro x _
    split
    · exact jumpTo_final ..
    · trivial
  | jump => exact fun x _ => jumpTo_final ..
  | jumpTable => exact fun x _ y _ z _ => jumpTo_final ..
  | call argc => exact fun x _ => trivial
  | move => exact copy_final fun _ => rfl
  | moveThrough =>
    exact fun count _ source _ target _ => copy_final (targets_of_indirect rfl _)

end Step
namespace StringArena
variable {a : StringArena}

theorem table_push (a : StringArena) (bytes : Text.Bytes) : (a.push bytes).2.table = a.table := by
  cases hf : a.free with
  | nil => rw [push_of_nil hf]
  | cons slot free => rw [push_of_cons hf]

theorem InOrder.get_push (h : a.InOrder) (new : Text.Bytes) {r : StringRef} {bytes : Text.Bytes}
    (hr : a.get r = .ok bytes) : (a.push new).2.get r = .ok bytes := by
  by_cases transient : r < 0
  · have held : (a.push new).2.slots.getD (slotOf r) none = a.slots.getD (slotOf r) none := by
      rw [Array.getD_eq_getD_getElem?, Array.getD_eq_getD_getElem?, h.getElem?_push, if_neg ?_]
      intro next
      have vacant : a.slots.getD (slotOf r) none = none := by
        rw [Array.getD_eq_getD_getElem?, next]
        cases hi : a.slots[a.nextSlot]? with
        | none => rfl
        | some held =>
          cases held with
          | none => rfl
          | some t => exact absurd hi (h.nextSlot_vacant t)
      simp only [get, if_pos transient, vacant, Option.map_none] at hr
      cases hr
    simp only [get, if_pos transient, held] at hr ⊢
    exact hr
  · simp only [get, if_neg transient, table_push] at hr ⊢
    exact hr

theorem InOrder.get_concat (h : a.InOrder) {x y joined : StringRef} {a' : StringArena}
    (hc : a.concat x y = .ok (joined, a')) {r : StringRef} {bytes : Text.Bytes}
    (hr : a.get r = .ok bytes) : a'.get r = .ok bytes := by
  simp only [concat] at hc
  split at hc
  · cases hc
  · cases hc
  · rename_i left right hx hy
    obtain ⟨-, rfl⟩ := Prod.ext_iff.mp (Except.ok.inj hc)
    exact h.get_push _ hr

theorem inOrder_ran (table : Array UInt8) (ops : List Operation) : (ran table ops).InOrder :=
  List.foldlRecOn ops apply (inOrder_ofTable table) fun _ h op _ => h.apply op

end StringArena

namespace Machine

@[simp] theorem setStore_control (v : Machine) (store : Store) :
    (v.setStore store).control = v.control := rfl

@[simp] theorem setStore_argc (v : Machine) (store : Store) : (v.setStore store).argc = v.argc := rfl

end Machine

section statement
variable {settings : Settings} {m : Module} {index : Nat} {s : Statement} {st : Store}

theorem Step.effect_concat (settings : Settings) (m : Module) (index : Nat) (s : Statement) :
    effect settings m index s .concat =
      .read .a 1 fun left => .read .b 1 fun right =>
        .concat (left.headD 0).toInt32 (right.headD 0).toInt32 fun joined =>
          .write .c [joined.toUInt32] (.done .next) := rfl

/-- Where a statement writes if it writes to an operand at all. -/
theorem writes_destination {op : Opcode} (ho : Opcode.ofCode? s.op = some op)
    (direct : op.isDirect) : ∀ x ∈ s.writes settings m index st, x = op.destination s := by
  unfold Statement.writes
  rw [ho]
  by_cases joins : op = .concat
  · subst joins
    have joined : (Step.effect settings m index s .concat).Writes
        (· = Opcode.destination s .concat) := fun _ _ _ => ⟨rfl, trivial⟩
    exact joined.writes st
  · have sets : op ≠ .state := by
      rintro rfl
      cases direct
    intro x hx
    exact (Step.effect_final settings m index s joins sets).writes st x hx direct

/-- A statement that joins no strings and does not set the state of an entity leaves the strings
alone, and everything if it fails. -/
theorem step_final (joins : Opcode.ofCode? s.op ≠ some .concat)
    (sets : Opcode.ofCode? s.op ≠ some .state) (st : Store) :
    (step settings m index s st).2.strings = st.strings ∧
      ∀ e, (step settings m index s st).1 = .error e → (step settings m index s st).2 = st := by
  unfold step
  cases ho : Opcode.ofCode? s.op with
  | none => exact ⟨rfl, fun e _ => rfl⟩
  | some op =>
    rw [ho] at joins sets
    have joins : op ≠ .concat := fun same => joins (congrArg some same)
    have sets : op ≠ .state := fun same => sets (congrArg some same)
    exact (Step.effect_final settings m index s joins sets).run st

theorem concat_keeps (inOrder : st.strings.InOrder) (ho : Opcode.ofCode? s.op = some .concat)
    {r : StringRef} {bytes : Text.Bytes} (hr : st.strings.get r = .ok bytes) :
    (step settings m index s st).2.strings.get r = .ok bytes := by
  obtain ⟨memory, strings⟩ := st
  unfold step
  rw [ho]
  simp only [Step.effect_concat, Plan.run]
  cases memory.slice (Place.a.address s) 1 with
  | error e => exact hr
  | ok left =>
    dsimp only
    cases memory.slice (Place.b.address s) 1 with
    | error e => exact hr
    | ok right =>
      dsimp only
      cases hc : strings.concat (left.headD 0).toInt32 (right.headD 0).toInt32 with
      | error e => exact hr
      | ok joined =>
        have kept := inOrder.get_concat hc hr
        dsimp only
        split <;> exact kept

/-- The frame of a statement that writes through no pointer and to no entity, and neither calls nor
returns, whether or not it fails. No word outside its destination changes, nor does anything in the
calls; only joining strings changes the strings, and of strings that operations have made it keeps all
that can be read. -/
theorem Machine.statement_frame {v v' : Machine} {result : Except Fault Control}
    (direct : ∀ op, Opcode.ofCode? s.op = some op → op.isDirect)
    (h : v.act (step settings m index s) = (result, v')) :
    (∀ w : Nat, (∀ op, Opcode.ofCode? s.op = some op → ¬ (op.destination s).Touches s w) →
      v'.store.memory.words[w]? = v.store.memory.words[w]?) ∧
    (v'.control = v.control ∧ v'.argc = v.argc) ∧
    (Opcode.ofCode? s.op ≠ some .concat → v'.store.strings = v.store.strings) ∧
    ∀ table ops, v.store.strings = .ran table ops → ∀ r bytes,
      v.store.strings.get r = .ok bytes → v'.store.strings.get r = .ok bytes := by
  rw [act_eq] at h
  obtain ⟨-, rfl⟩ := Prod.mk.inj h
  have alone (joins : Opcode.ofCode? s.op ≠ some .concat) :
      (step settings m index s v.store).2.strings = v.store.strings := by
    have sets : Opcode.ofCode? s.op ≠ some .state := by
      intro ho
      cases direct _ ho
    exact (step_final joins sets v.store).1
  rw [setStore_store, setStore_control, setStore_argc]
  refine ⟨?_, ⟨rfl, rfl⟩, alone, ?_⟩
  · intro w outside
    refine step_unwritten ?_
    intro x hx
    cases ho : Opcode.ofCode? s.op with
    | none =>
      unfold Statement.writes at hx
      rw [ho] at hx
      cases hx
    | some op =>
      rw [writes_destination ho (direct op ho) x hx]
      exact outside op ho
  · intro table ops arena r bytes hr
    by_cases joins : Opcode.ofCode? s.op = some .concat
    · have inOrder : v.store.strings.InOrder := by
        rw [arena]
        exact StringArena.inOrder_ran table ops
      exact concat_keeps inOrder joins hr
    · rw [alone joins]
      exact hr

end statement

def lettered : Machine :=
  { residents with
    store := ⟨⟨Array.replicate 28 0 ++ #[0xffffffff, 0xfffffffe, 7, 8]⟩,
      .ran #[] [.push [104], .push [105]]⟩ }

def joinLetters : Statement := ⟨Opcode.concat.code, 28, 29, 30⟩

/-- Joining the letters gives a third string, and leaves the letters and the word behind its result. -/
theorem lettered_framed :
    ∃ v', lettered.act (step {} residents.program 1 joinLetters) = (.ok .next, v') ∧
      v'.store.memory.words[31]? = lettered.store.memory.words[31]? ∧
      v'.control = lettered.control ∧ v'.store.strings.get (-1) = .ok [104] ∧
      v'.store.memory.words[30]? = some 0xfffffffd ∧ v'.store.strings.get (-3) = .ok [104, 105] := by
  obtain ⟨ho, made, written, joined, first⟩ :
      Opcode.ofCode? joinLetters.op = some .concat ∧
        (step {} residents.program 1 joinLetters lettered.store).1.toOption = some .next ∧
        (step {} residents.program 1 joinLetters lettered.store).2.memory.words[30]? =
          some 0xfffffffd ∧
        (step {} residents.program 1 joinLetters lettered.store).2.strings.get (-3) =
          .ok [104, 105] ∧
        lettered.store.strings.get (-1) = .ok [104] := by decide +kernel
  have ran : lettered.act (step {} residents.program 1 joinLetters) =
      (.ok .next, lettered.setStore (step {} residents.program 1 joinLetters lettered.store).2) := by
    rw [Machine.act_eq, ok_of_toOption made]
  have arena : lettered.store.strings = .ran #[] [.push [104], .push [105]] := rfl
  have direct (op : Opcode) (h : Opcode.ofCode? joinLetters.op = some op) : op.isDirect := by
    cases ho.symm.trans h
    rfl
  obtain ⟨outside, ⟨control, -⟩, -, kept⟩ := Machine.statement_frame direct ran
  refine ⟨_, ran, outside 31 ?_, control, kept _ _ arena _ _ first, ?_⟩
  · intro op h touches
    cases ho.symm.trans h
    exact absurd touches.2 (by decide)
  · rw [Machine.setStore_store]
    exact ⟨written, joined⟩

end GameBytecode
