import GameBytecode.Image.Builder
import GameBytecode.Proofs.StatementOutcome
import GameBytecode.Validation

/-!
The words that a statement touches at its operands. In a checked module they are globals, but for a
move: the check counts one word for each of its two operands, and the move takes as many as it says.
-/
namespace GameBytecode

/-- An access to a number of words of memory. -/
structure Access where
  place : Place
  count : Nat
deriving DecidableEq, Repr

namespace Access

def Touches (s : Statement) (x : Access) (w : Nat) : Prop :=
  x.place.address s ≤ w ∧ w < x.place.address s + x.count

/-- Every word that the access touches at an operand is a global. -/
def Inside (s : Statement) (globals : Nat) (x : Access) : Prop :=
  ∀ slot, x.place = .operand slot → ∀ w, (s.slot slot).toNat ≤ w →
    w < (s.slot slot).toNat + x.count → w < globals

end Access

theorem Memory.length_slice {memory : Memory} {address : Int} {count : Nat} {ws : List Word}
    (h : memory.slice address count = .ok ws) : ws.length = count := by
  obtain ⟨i, hr, rfl⟩ := ok_of_map h
  obtain ⟨-, -, inside⟩ := resolve_ok hr
  rw [Array.length_toList, Array.size_extract]
  omega

/-- Stores of one size with the same strings, and with the same words where a property holds. -/
structure Store.AgreesOn (P : Nat → Prop) (st st' : Store) : Prop where
  strings : st'.strings = st.strings
  size : st'.memory.words.size = st.memory.words.size
  words : ∀ w, P w → st'.memory.words[w]? = st.memory.words[w]?

theorem Store.AgreesOn.setWords {P : Nat → Prop} {memory memory' : Memory}
    {arena arena' : StringArena} (h : Store.AgreesOn P ⟨memory, arena⟩ ⟨memory', arena'⟩)
    {i : Nat} {ws : List Word} (inside : i + ws.length ≤ memory.words.size) :
    Store.AgreesOn P ⟨⟨Memory.setWords memory.words i ws⟩, arena⟩
      ⟨⟨Memory.setWords memory'.words i ws⟩, arena'⟩ := by
  have size : memory'.words.size = memory.words.size := h.size
  refine ⟨h.strings, ?_, fun w hw => ?_⟩
  · rw [Memory.size_setWords, Memory.size_setWords]
    exact size
  · rw [Memory.getElem?_setWords _ _ _ _ inside,
      Memory.getElem?_setWords _ _ _ _ (by rw [size]; exact inside)]
    split
    · rfl
    · exact h.words w hw

namespace Plan
variable {α β : Type} {s : Statement}

/-- The accesses of a plan on a store, to the end or to the first that fails. -/
def accesses (s : Statement) : Plan α → Store → List Access
  | done _, _ | fail _, _ => []
  | read place count k, st =>
    ⟨place, count⟩ :: match st.memory.slice (place.address s) count with
      | .error _ => []
      | .ok ws => (k ws).accesses s st
  | write place words k, ⟨memory, strings⟩ =>
    ⟨place, words.length⟩ :: match memory.resolve (place.address s) words.length with
      | .error _ => []
      | .ok i => k.accesses s ⟨⟨Memory.setWords memory.words i words⟩, strings⟩
  | observe f k, st =>
    match f st.strings with
    | .error _ => []
    | .ok answer => (k answer).accesses s st
  | concat r t k, ⟨memory, strings⟩ =>
    match strings.concat r t with
    | .error _ => []
    | .ok (joined, strings) => (k joined).accesses s ⟨memory, strings⟩

/-- Those accesses of a plan on a store that write, to the end or to the first that fails. -/
def writes (s : Statement) : Plan α → Store → List Access
  | done _, _ | fail _, _ => []
  | read place count k, st =>
    match st.memory.slice (place.address s) count with
    | .error _ => []
    | .ok ws => (k ws).writes s st
  | write place words k, ⟨memory, strings⟩ =>
    ⟨place, words.length⟩ :: match memory.resolve (place.address s) words.length with
      | .error _ => []
      | .ok i => k.writes s ⟨⟨Memory.setWords memory.words i words⟩, strings⟩
  | observe f k, st =>
    match f st.strings with
    | .error _ => []
    | .ok answer => (k answer).writes s st
  | concat r t k, ⟨memory, strings⟩ =>
    match strings.concat r t with
    | .error _ => []
    | .ok (joined, strings) => (k joined).writes s ⟨memory, strings⟩

theorem writes_subset {p : Plan α} (st : Store) : p.writes s st ⊆ p.accesses s st := by
  induction p generalizing st with
  | done a => exact List.Subset.refl _
  | fail e => exact List.Subset.refl _
  | read place count k ih =>
    simp only [writes, accesses]
    split
    · exact List.nil_subset _
    · exact List.subset_cons_of_subset _ (ih _ st)
  | write place words k ih =>
    obtain ⟨memory, strings⟩ := st
    simp only [writes, accesses]
    split
    · exact List.Subset.refl _
    · exact List.cons_subset_cons _ (ih _)
  | observe f k ih =>
    simp only [writes, accesses]
    split
    · exact List.Subset.refl _
    · exact ih _ st
  | concat r t k ih =>
    obtain ⟨memory, strings⟩ := st
    simp only [writes, accesses]
    split
    · exact List.Subset.refl _
    · exact ih _ _

/-- A plan changes no word that it does not write. -/
theorem run_unwritten {p : Plan α} {st : Store} {w : Nat}
    (h : ∀ x ∈ p.writes s st, ¬ x.Touches s w) :
    (p.run s st).2.memory.words[w]? = st.memory.words[w]? := by
  induction p generalizing st with
  | done a => rfl
  | fail e => rfl
  | read place count k ih =>
    simp only [writes] at h
    simp only [run]
    cases hs : st.memory.slice (place.address s) count with
    | error e => rfl
    | ok ws =>
      rw [hs] at h
      exact ih ws h
  | write place words k ih =>
    obtain ⟨memory, strings⟩ := st
    simp only [writes] at h
    simp only [run]
    cases hr : memory.resolve (place.address s) words.length with
    | error e => rfl
    | ok i =>
      rw [hr] at h
      obtain ⟨positive, rfl, inside⟩ := Memory.resolve_ok hr
      have outside : ¬ (place.address s ≤ w ∧ w < place.address s + words.length) :=
        h _ List.mem_cons_self
      refine (ih fun x hx => h x (List.mem_cons_of_mem _ hx)).trans ?_
      rw [Memory.getElem?_setWords _ _ _ _ inside, if_neg (by omega)]
  | observe f k ih =>
    simp only [writes] at h
    simp only [run]
    cases hf : f st.strings with
    | error e => rfl
    | ok answer =>
      rw [hf] at h
      exact ih answer h
  | concat r t k ih =>
    obtain ⟨memory, strings⟩ := st
    simp only [writes] at h
    simp only [run]
    cases hc : strings.concat r t with
    | error e => rfl
    | ok joined =>
      rw [hc] at h
      exact ih joined.1 h

/-- A plan changes no word that it does not access. -/
theorem run_untouched {p : Plan α} {st : Store} {w : Nat}
    (h : ∀ x ∈ p.accesses s st, ¬ x.Touches s w) :
    (p.run s st).2.memory.words[w]? = st.memory.words[w]? :=
  run_unwritten fun x hx => h x (writes_subset st hx)

/-- What a plan comes to, and what it writes, depends on no word that it does not access. -/
theorem run_agreesOn {P : Nat → Prop} {p : Plan α} {st st' : Store} (agrees : Store.AgreesOn P st st')
    (covers : ∀ x ∈ p.accesses s st, ∀ w, x.Touches s w → P w) :
    (p.run s st').1 = (p.run s st).1 ∧ Store.AgreesOn P (p.run s st).2 (p.run s st').2 := by
  induction p generalizing st st' with
  | done a => exact ⟨rfl, agrees⟩
  | fail e => exact ⟨rfl, agrees⟩
  | read place count k ih =>
    simp only [accesses] at covers
    have sliced :
        st'.memory.slice (place.address s) count = st.memory.slice (place.address s) count :=
      Memory.slice_congr agrees.size fun w low high =>
        agrees.words w (covers _ List.mem_cons_self w ⟨low, high⟩)
    simp only [run]
    rw [sliced]
    cases hs : st.memory.slice (place.address s) count with
    | error e => exact ⟨rfl, agrees⟩
    | ok ws =>
      rw [hs] at covers
      exact ih ws agrees fun x hx => covers x (List.mem_cons_of_mem _ hx)
  | write place words k ih =>
    obtain ⟨memory, arena⟩ := st
    obtain ⟨memory', arena'⟩ := st'
    simp only [accesses] at covers
    simp only [run]
    rw [show memory'.resolve (place.address s) words.length = _ from
      Memory.resolve_congr agrees.size _ _]
    cases hr : memory.resolve (place.address s) words.length with
    | error e => exact ⟨rfl, agrees⟩
    | ok i =>
      rw [hr] at covers
      obtain ⟨-, -, inside⟩ := Memory.resolve_ok hr
      exact ih (agrees.setWords inside) fun x hx => covers x (List.mem_cons_of_mem _ hx)
  | observe f k ih =>
    simp only [accesses] at covers
    simp only [run]
    rw [agrees.strings]
    cases hf : f st.strings with
    | error e => exact ⟨rfl, agrees⟩
    | ok answer =>
      rw [hf] at covers
      exact ih answer agrees covers
  | concat r t k ih =>
    obtain ⟨memory, arena⟩ := st
    obtain ⟨memory', arena'⟩ := st'
    obtain rfl : arena' = arena := agrees.strings
    simp only [accesses] at covers
    simp only [run]
    cases hc : arena'.concat r t with
    | error e => exact ⟨rfl, agrees⟩
    | ok joined =>
      rw [hc] at covers
      exact ih joined.1 ⟨rfl, agrees.size, agrees.words⟩ covers

/-- Every access that a plan can come to has a property. A read gives as many words as it asks for. -/
def All (P : Access → Prop) : Plan α → Prop
  | done _ | fail _ => True
  | read place count k => P ⟨place, count⟩ ∧ ∀ ws, ws.length = count → (k ws).All P
  | write place words k => P ⟨place, words.length⟩ ∧ k.All P
  | observe _ k => ∀ answer, (k answer).All P
  | concat _ _ k => ∀ joined, (k joined).All P

theorem All.bind {P : Access → Prop} {p : Plan α} {f : α → Plan β} (hp : p.All P)
    (hf : ∀ a, (f a).All P) : (p >>= f).All P := by
  induction p with
  | done a => exact hf a
  | fail e => trivial
  | read place count k ih => exact ⟨hp.1, fun ws hw => ih ws (hp.2 ws hw)⟩
  | write place words k ih => exact ⟨hp.1, ih hp.2⟩
  | observe g k ih => exact fun answer => ih answer (hp answer)
  | concat r t k ih => exact fun joined => ih joined (hp joined)

theorem All.ofExcept {P : Access → Prop} (x : Except Fault α) : (Plan.ofExcept x).All P := by
  cases x <;> trivial

theorem All.accesses {P : Access → Prop} {p : Plan α} (hp : p.All P) (st : Store) :
    ∀ x ∈ p.accesses s st, P x := by
  induction p generalizing st with
  | done a =>
    intro x hx
    cases hx
  | fail e =>
    intro x hx
    cases hx
  | read place count k ih =>
    simp only [Plan.accesses]
    rw [List.forall_mem_cons]
    refine ⟨hp.1, ?_⟩
    split
    · intro x hx
      cases hx
    · rename_i hs
      exact ih _ (hp.2 _ (Memory.length_slice hs)) st
  | write place words k ih =>
    obtain ⟨memory, strings⟩ := st
    simp only [Plan.accesses]
    rw [List.forall_mem_cons]
    refine ⟨hp.1, ?_⟩
    split
    · intro x hx
      cases hx
    · exact ih hp.2 _
  | observe f k ih =>
    simp only [Plan.accesses]
    split
    · intro x hx
      cases hx
    · exact ih _ (hp _) st
  | concat r t k ih =>
    obtain ⟨memory, strings⟩ := st
    simp only [Plan.accesses]
    split
    · intro x hx
      cases hx
    · exact ih _ (hp _) _

end Plan

/-- The words that the check counts for an operand: as many as its type is wide, and none for an
operand that is unused or a number. -/
def ValueType.span : ValueType → Nat
  | void | immediate => 0
  | type => type.width

/-- The types that the check takes the operands of an opcode to have. -/
def Opcode.checkedOperands : Opcode → Opcode.Operands
  | done | ret => ⟨.vector, .void, .void⟩
  | op => op.operands

/-- Words that the check counts for an operand of an opcode. -/
def Opcode.span (op : Opcode) (slot : Opcode.Slot) : Nat := (op.checkedOperands.get slot).span

namespace Access

/-- An access at an operand takes no more words than the check counts. -/
def Counted (op : Opcode) (x : Access) : Prop :=
  ∀ slot, x.place = .operand slot → x.count ≤ op.span slot

@[simp] theorem counted_operand (op : Opcode) (slot : Opcode.Slot) (count : Nat) :
    Counted op ⟨.operand slot, count⟩ ↔ count ≤ op.span slot := by
  constructor
  · exact fun h => h slot rfl
  · rintro h _ ⟨⟩
    exact h

@[simp] theorem counted_bound (op : Opcode) (address count : Nat) :
    Counted op ⟨.bound address, count⟩ :=
  fun _ h => nomatch h

@[simp] theorem counted_found (op : Opcode) (address : Int) (count : Nat) :
    Counted op ⟨.found address, count⟩ :=
  fun _ h => nomatch h

end Access

theorem Numeric.span_type (kind : Numeric) : kind.type.span = 1 := by cases kind <;> rfl

theorem Cell.span_type (cell : Cell) : cell.type.span = cell.width := by cases cell <;> rfl

namespace Step
open Plan Access

theorem jumpTo_all (P : Access → Prop) (settings : Settings) (m : Module) (target : Int) :
    (jumpTo settings m target).All P := by
  simp only [jumpTo]
  split <;> trivial

theorem binding_all (P : Access → Prop) (name : String) (address : Option Nat) :
    (binding name address).All P := by
  cases address <;> trivial

theorem copy_all {P : Access → Prop} {source target : Place} {count : Nat}
    (hs : P ⟨source, count⟩) (ht : P ⟨target, count⟩) : (copy source target count).All P :=
  ⟨hs, fun ws hw => ⟨by rw [hw]; exact ht, trivial⟩⟩

/-- Only a move takes more words at an operand than the check counts. -/
theorem effect_counted (settings : Settings) (m : Module) (index : Nat) (s : Statement)
    {op : Opcode} (h : op ≠ .move) : (effect settings m index s op).All (Counted op) := by
  have operand {slot : Opcode.Slot} {count : Nat} (hc : count = op.span slot) :
      Counted op ⟨.operand slot, count⟩ := (counted_operand ..).mpr (Nat.le_of_eq hc)
  have found (address : Int) (count : Nat) : Counted op ⟨.found address, count⟩ :=
    counted_found op address count
  cases op with
  | move => exact absurd rfl h
  | done | ret => trivial
  | goto => exact jumpTo_all _ _ _ _
  | arithmetic kind f =>
    have one : 1 = kind.type.span := kind.span_type.symm
    simp only [effect, word, read_bind, done_bind, lift_eq, All]
    exact ⟨operand one, fun x _ => ⟨operand one, fun y _ => .bind (.ofExcept _) fun w =>
      ⟨operand one, trivial⟩⟩⟩
  | complement kind =>
    have one : 1 = kind.type.span := kind.span_type.symm
    cases kind <;> exact ⟨operand one, fun x _ => ⟨operand one, trivial⟩⟩
  | connective kind f =>
    have one : 1 = kind.type.span := kind.span_type.symm
    exact ⟨operand one, fun x _ => ⟨operand one, fun y _ => ⟨operand rfl, trivial⟩⟩⟩
  | compare kind f =>
    cases kind with
    | float =>
      cases f <;>
        exact ⟨operand rfl, fun x _ => ⟨operand rfl, fun y _ => ⟨operand rfl, trivial⟩⟩⟩
    | string =>
      exact ⟨operand rfl, fun x _ => ⟨operand rfl, fun y _ holds => ⟨operand rfl, trivial⟩⟩⟩
    | _ => exact ⟨operand rfl, fun x _ => ⟨operand rfl, fun y _ => ⟨operand rfl, trivial⟩⟩⟩
  | same kind equal =>
    cases kind <;>
      exact ⟨operand rfl, fun x _ => ⟨operand rfl, fun y _ => ⟨operand rfl, trivial⟩⟩⟩
  | isEmpty kind =>
    cases kind with
    | string => exact ⟨operand rfl, fun x _ holds => ⟨operand rfl, trivial⟩⟩
    | _ => exact ⟨operand rfl, fun x _ => ⟨operand rfl, trivial⟩⟩
  | dot | addVectors | subVectors | scaleByLeft | scaleByRight | advance =>
    exact ⟨operand rfl, fun x _ => ⟨operand rfl, fun y _ => ⟨operand rfl, trivial⟩⟩⟩
  | concat =>
    exact ⟨operand rfl, fun x _ => ⟨operand rfl, fun y _ joined => ⟨operand rfl, trivial⟩⟩⟩
  | integerToFloat | floatToInteger | integerToUnsigned | unsignedToInteger | advanceNear =>
    exact ⟨operand rfl, fun x _ => ⟨operand rfl, trivial⟩⟩
  | load cell =>
    have wide : cell.width = cell.type.span := cell.span_type.symm
    simp only [effect, integer, word, read_bind, done_bind, lift_eq, pure_eq, All]
    exact ⟨operand rfl, fun entity _ => ⟨operand rfl, fun field _ => .bind (.ofExcept _)
      fun address => .bind (copy_all (found _ _) (operand wide)) fun _ => trivial⟩⟩
  | fieldAddress =>
    simp only [effect, integer, word, read_bind, done_bind, lift_eq, pure_eq, All]
    refine ⟨operand rfl, fun entity _ => ⟨operand rfl, ?_⟩⟩
    intro field _
    split
    · trivial
    · refine .bind (.ofExcept _) ?_
      intro address
      split
      · trivial
      · exact ⟨operand rfl, trivial⟩
  | store cell =>
    have wide : cell.width = cell.type.span := cell.span_type.symm
    exact .bind (copy_all (operand wide) (operand wide)) fun _ => trivial
  | storeThrough cell =>
    have wide : cell.width = cell.type.span := cell.span_type.symm
    simp only [effect, integer, word, read_bind, done_bind, pure_eq, All]
    exact ⟨operand rfl, fun pointer _ =>
      .bind (copy_all (operand wide) (found _ _)) fun _ => trivial⟩
  | storeNear cell =>
    have wide : cell.width = cell.type.span := cell.span_type.symm
    simp only [effect, integer, word, read_bind, done_bind, pure_eq, All]
    exact ⟨operand rfl, fun pointer _ =>
      .bind (copy_all (operand wide) (found _ _)) fun _ => trivial⟩
  | storeAt cell =>
    have wide : cell.width = cell.type.span := cell.span_type.symm
    simp only [effect, integer, word, read_bind, done_bind, pure_eq, All]
    exact ⟨operand rfl, fun pointer _ => ⟨operand rfl, fun offset _ =>
      .bind (copy_all (operand wide) (found _ _)) fun _ => trivial⟩⟩
  | loadAt cell =>
    have wide : cell.width = cell.type.span := cell.span_type.symm
    simp only [effect, integer, word, read_bind, done_bind, pure_eq, All]
    exact ⟨operand rfl, fun pointer _ => ⟨operand rfl, fun offset _ =>
      .bind (copy_all (found _ _) (operand wide)) fun _ => trivial⟩⟩
  | loadNear cell =>
    have wide : cell.width = cell.type.span := cell.span_type.symm
    simp only [effect, integer, word, read_bind, done_bind, pure_eq, All]
    exact ⟨operand rfl, fun pointer _ =>
      .bind (copy_all (found _ _) (operand wide)) fun _ => trivial⟩
  | address cell => exact ⟨operand rfl, trivial⟩
  | branch condition =>
    simp only [effect, word, read_bind, done_bind, pure_eq, All]
    refine ⟨operand rfl, ?_⟩
    intro x _
    split
    · exact jumpTo_all _ _ _ _
    · trivial
  | jump => exact ⟨operand rfl, fun x _ => jumpTo_all _ _ _ _⟩
  | jumpTable =>
    exact ⟨operand rfl, fun x _ => ⟨operand rfl, fun y _ => ⟨found _ _, fun z _ =>
      jumpTo_all _ _ _ _⟩⟩⟩
  | call argc => exact ⟨operand rfl, fun x _ => trivial⟩
  | moveThrough =>
    simp only [effect, integer, word, read_bind, done_bind, pure_eq, All]
    exact ⟨operand rfl, fun count _ => ⟨operand rfl, fun source _ => ⟨operand rfl, fun target _ =>
      .bind (copy_all (found _ _) (found _ _)) fun _ => trivial⟩⟩⟩
  | state =>
    have bound (address count : Nat) : Counted .state ⟨.bound address, count⟩ :=
      counted_bound .state address count
    simp only [effect]
    refine .bind (binding_all ..) fun self => .bind (binding_all ..) fun time =>
      .bind (binding_all ..) fun nextThink => .bind (binding_all ..) fun frame =>
      .bind (binding_all ..) ?_
    intro think
    simp only [integer, word, putWord, put, read_bind, done_bind, write_bind, lift_eq, pure_eq, All]
    exact ⟨bound _ _, fun entity _ => ⟨bound _ _, fun now _ => ⟨operand rfl, fun number _ =>
      ⟨operand rfl, fun function _ => .bind (.ofExcept _) fun first => ⟨found _ _,
        .bind (.ofExcept _) fun second => ⟨found _ _, .bind (.ofExcept _) fun third =>
          ⟨found _ _, trivial⟩⟩⟩⟩⟩⟩⟩

end Step
namespace Validation
variable {m : Module} {index : Nat} {op : Opcode} {s : Statement}

theorem flaw?_none {globals : Nat} {type : ValueType} {operand : UInt16}
    (h : flaw? globals type operand = none) (used : 0 < type.span) :
    operand.toNat + type.span ≤ globals := by
  cases type with
  | void | immediate => exact absurd used (Nat.lt_irrefl 0)
  | _ =>
    simp only [flaw?] at h
    split at h
    · cases h
    · split at h
      · cases h
      · exact Nat.not_lt.mp ‹_›

theorem checkOperand_ok {slot : Opcode.Slot} {type : ValueType} {operand : UInt16}
    (h : checkOperand m index op slot type operand = .ok ()) (used : 0 < type.span) :
    operand.toNat + type.span ≤ m.header.globals.count.toNat := by
  simp only [checkOperand] at h
  cases hf : flaw? m.header.globals.count.toNat type operand with
  | none => exact flaw?_none hf used
  | some flaw => rw [hf] at h; cases h

theorem checkOperands_ok (types : Opcode.Operands) (h : (do
      checkOperand m index op .a types.a s.a
      checkOperand m index op .b types.b s.b
      checkOperand m index op .c types.c s.c) = .ok ()) (slot : Opcode.Slot)
    (used : 0 < (types.get slot).span) :
    (s.slot slot).toNat + (types.get slot).span ≤ m.header.globals.count.toNat := by
  obtain ⟨_, ha, h⟩ := ok_of_bind h
  obtain ⟨_, hb, hc⟩ := ok_of_bind h
  cases slot with
  | a => exact checkOperand_ok ha used
  | b => exact checkOperand_ok hb used
  | c => exact checkOperand_ok hc used

/-- A statement that passes has an opcode, and the words counted for its operands are globals. -/
theorem checkStatement_ok (h : checkStatement m index s = .ok ()) :
    ∃ op, Opcode.ofCode? s.op = some op ∧
      ∀ slot, 0 < op.span slot →
        (s.slot slot).toNat + op.span slot ≤ m.header.globals.count.toNat := by
  unfold checkStatement at h
  cases ho : Opcode.ofCode? s.op with
  | none => rw [ho] at h; cases h
  | some op =>
    rw [ho] at h
    refine ⟨op, rfl, ?_⟩
    dsimp only at h
    split at h
    · cases op with
      | done | ret => exact checkOperands_ok _ h
      | goto =>
        intro slot used
        cases slot <;> cases used
      | branch condition =>
        obtain ⟨_, ha, -⟩ := ok_of_bind h
        intro slot used
        cases slot with
        | a => exact checkOperand_ok ha used
        | b | c => cases used
      | _ => exact checkOperands_ok _ h
    · obtain ⟨_, thrown, -⟩ := ok_of_bind h
      cases thrown

theorem checkFrom_ok {statements : List Statement} {first : Nat}
    (h : checkFrom m first statements = .ok ()) {i : Nat} (hs : statements[i]? = some s) :
    checkStatement m (first + i) s = .ok () := by
  induction statements generalizing first i with
  | nil => cases hs
  | cons t rest ih =>
    unfold checkFrom at h
    cases ht : checkStatement m first t with
    | error e => rw [ht] at h; cases h
    | ok _ =>
      rw [ht] at h
      cases i with
      | zero =>
        cases hs
        exact ht
      | succ i =>
        rw [Nat.add_succ, ← Nat.succ_add]
        exact ih h hs

end Validation
/-- The words that control hands over from an operand: the three of a returned value. -/
def Control.accesses : Control → List Access
  | .ret _ => [⟨.a, 3⟩]
  | _ => []

/-- The accesses of a statement on a store, in order. -/
def Statement.accesses (settings : Settings) (m : Module) (index : Nat) (s : Statement)
    (st : Store) : List Access :=
  match Opcode.ofCode? s.op with
  | none => []
  | some op =>
    (Step.effect settings m index s op).accesses s st ++
      match (step settings m index s st).1 with
      | .ok control => control.accesses
      | .error _ => []

/-- A statement reads and changes no words but those of its accesses: all others stay, and on a store
that has the same words there it ends as on this one and writes the same. -/
structure Statement.Confined (settings : Settings) (m : Module) (index : Nat) (s : Statement)
    (st : Store) : Prop where
  kept : ∀ w, (∀ x ∈ s.accesses settings m index st, ¬ x.Touches s w) →
    (step settings m index s st).2.memory.words[w]? = st.memory.words[w]?
  settled : ∀ P st', Store.AgreesOn P st st' →
    (∀ x ∈ s.accesses settings m index st, ∀ w, x.Touches s w → P w) →
      (step settings m index s st').1 = (step settings m index s st).1 ∧
        Store.AgreesOn P (step settings m index s st).2 (step settings m index s st').2

section statement
variable {settings : Settings} {m : Module} {index globals : Nat} {s : Statement} {st : Store}
  {op : Opcode}

theorem Statement.confined : s.Confined settings m index st := by
  cases ho : Opcode.ofCode? s.op with
  | none =>
    have stays (st : Store) : step settings m index s st = (.error (.unknownOpcode s.op), st) := by
      unfold step
      rw [ho]
      rfl
    refine ⟨fun w _ => by rw [stays], fun P st' agrees _ => ?_⟩
    rw [stays, stays]
    exact ⟨rfl, agrees⟩
  | some op =>
    have runs (st : Store) :
        step settings m index s st = (Step.effect settings m index s op).run s st := by
      unfold step
      rw [ho]
    have effect {x : Access} (hx : x ∈ (Step.effect settings m index s op).accesses s st) :
        x ∈ s.accesses settings m index st := by
      unfold Statement.accesses
      rw [ho]
      exact List.mem_append_left _ hx
    constructor
    · intro w outside
      rw [runs]
      exact Plan.run_untouched fun x hx => outside x (effect hx)
    · intro P st' agrees covers
      rw [runs, runs]
      exact Plan.run_agreesOn agrees fun x hx => covers x (effect hx)

theorem Access.Counted.inside {x : Access} (h : x.Counted op)
    (spans : ∀ slot, 0 < op.span slot → (s.slot slot).toNat + op.span slot ≤ globals) :
    x.Inside s globals := by
  intro slot hs w low high
  have counted := h slot hs
  have used := spans slot (by omega)
  omega

theorem control_counted (ho : Opcode.ofCode? s.op = some op) {control : Control}
    (h : (step settings m index s st).1 = .ok control) :
    ∀ x ∈ control.accesses, x.Counted op := by
  intro x hx
  cases control with
  | ret value =>
    cases hr : step settings m index s st with
    | mk result store =>
      rw [hr] at h
      cases h
      obtain ⟨-, -, returns⟩ := step_ret hr
      rw [ho, Option.some.injEq, Option.some.injEq] at returns
      rw [List.mem_singleton.mp hx, Place.a, Access.counted_operand]
      rcases returns with rfl | rfl <;> exact Nat.le_refl 3
  | _ => cases hx

/-- A move reads as many words as it says, and writes them if it can read them. -/
theorem move_accesses (ho : Opcode.ofCode? s.op = some .move) :
    (∀ x ∈ s.accesses settings m index st, x = ⟨.a, s.b.toNat⟩ ∨ x = ⟨.c, s.b.toNat⟩) ∧
      ⟨.a, s.b.toNat⟩ ∈ s.accesses settings m index st ∧
      (s.a.toNat + s.b.toNat ≤ st.memory.words.size →
        ⟨.c, s.b.toNat⟩ ∈ s.accesses settings m index st) := by
  have move : Step.effect settings m index s .move =
      .read .a s.b.toNat fun ws => .write .c ws (.done .next) := rfl
  unfold Statement.accesses
  rw [ho]
  dsimp only
  refine ⟨?_, List.mem_append_left _ ?_, ?_⟩
  · intro x hx
    rcases List.mem_append.mp hx with hx | hx
    · have copies : (Step.effect settings m index s .move).All
          fun x => x = ⟨.a, s.b.toNat⟩ ∨ x = ⟨.c, s.b.toNat⟩ :=
        .bind (Step.copy_all (.inl rfl) (.inr rfl)) fun _ => trivial
      exact copies.accesses st x hx
    · cases hr : (step settings m index s st).1 with
      | error e => rw [hr] at hx; cases hx
      | ok control =>
        rw [hr] at hx
        obtain ⟨op, ho', leads⟩ := (step_ends settings m index s st).1 control hr
        cases ho.symm.trans ho'
        cases control with
        | ret value => exact leads.elim
        | _ => cases hx
  · rw [move, Plan.accesses]
    exact List.mem_cons_self
  · intro readable
    apply List.mem_append_left
    have resolved : st.memory.resolve (Place.a.address s) s.b.toNat = .ok s.a.toNat := by
      unfold Memory.resolve Memory.size
      rw [if_neg (by simp only [Place.address, Statement.slot, Int.toNat_natCast]; omega)]
      rfl
    have sliced : ∃ ws, st.memory.slice (Place.a.address s) s.b.toNat = .ok ws := by
      unfold Memory.slice
      rw [resolved]
      exact ⟨_, rfl⟩
    obtain ⟨ws, hs⟩ := sliced
    rw [move, Plan.accesses, hs, ← Memory.length_slice hs]
    exact List.mem_cons_of_mem _ List.mem_cons_self

/-- In a checked module, every word that a statement touches at an operand is a global, unless the
statement is a move whose operands run past the globals. There is no word beside those it touches that
it reads or changes. -/
theorem operands_inside_iff (h : Validation.check m = .ok ()) (hs : m.statements[index]? = some s)
    (hst : m.header.globals.count.toNat ≤ st.memory.words.size) :
    ((∀ x ∈ s.accesses settings m index st, x.Inside s m.header.globals.count.toNat) ↔
      (Opcode.ofCode? s.op = some .move →
        s.a.toNat + s.b.toNat ≤ m.header.globals.count.toNat ∧
          s.c.toNat + s.b.toNat ≤ m.header.globals.count.toNat)) ∧
    s.Confined settings m index st := by
  obtain ⟨op, ho, spans⟩ := Validation.checkStatement_ok
    (Validation.checkFrom_ok h ((Array.getElem?_toList ..).trans hs))
  refine ⟨⟨?_, ?_⟩, Statement.confined⟩
  · intro inside hm
    cases ho.symm.trans hm
    obtain ⟨-, reads, writes⟩ := @move_accesses settings m index s st hm
    have ends {slot : Opcode.Slot} (hx : ⟨.operand slot, s.b.toNat⟩ ∈ s.accesses settings m index st)
        (used : 0 < Opcode.span .move slot) :
        (s.slot slot).toNat + s.b.toNat ≤ m.header.globals.count.toNat := by
      have first := spans slot used
      by_cases none : s.b.toNat = 0
      · omega
      · have last := inside _ hx slot rfl ((s.slot slot).toNat + s.b.toNat - 1) (by omega)
          (by dsimp only; omega)
        omega
    have readable := ends reads (by decide)
    exact ⟨readable, ends (writes (Nat.le_trans readable hst)) (by decide)⟩
  · intro fits x hx
    by_cases hm : op = .move
    · subst hm
      obtain ⟨readable, writable⟩ := fits ho
      rcases (move_accesses ho).1 x hx with rfl | rfl
      · rintro _ ⟨⟩ w - high
        exact Nat.lt_of_lt_of_le high readable
      · rintro _ ⟨⟩ w - high
        exact Nat.lt_of_lt_of_le high writable
    · apply Access.Counted.inside _ spans
      unfold Statement.accesses at hx
      rw [ho] at hx
      rcases List.mem_append.mp hx with hx | hx
      · exact (Step.effect_counted settings m index s hm).accesses st x hx
      · split at hx
        · rename_i hr
          exact control_counted ho hr x hx
        · cases hx

end statement
/-- A module of 40 globals whose second statement moves five words from the last of them. -/
def movingImage : Text.Bytes :=
  { Builder.empty with
    statements := #[.null, ⟨Opcode.move.code, 39, 5, 30⟩]
    globals := Array.replicate 40 0 : Builder }.bytes

theorem movingImage_loads :
    (Machine.load movingImage 0 64 { boundsCheck := true }).toOption.isSome := by decide +kernel

def moving : Machine :=
  (Machine.load movingImage 0 64 { boundsCheck := true }).toOption.get movingImage_loads

theorem moving_checked :
    Validation.check moving.program = .ok () ∧
      moving.program.statements[1]? = some ⟨Opcode.move.code, 39, 5, 30⟩ ∧
      moving.program.header.globals.count.toNat ≤ moving.store.memory.words.size :=
  ⟨ok_of_toOption (by decide +kernel), by decide +kernel, by decide +kernel⟩

theorem moving_inside_iff :
    (∀ x ∈ (⟨Opcode.move.code, 39, 5, 30⟩ : Statement).accesses {} moving.program 1 moving.store,
        x.Inside ⟨Opcode.move.code, 39, 5, 30⟩ moving.program.header.globals.count.toNat) ↔
      (Opcode.ofCode? Opcode.move.code = some .move →
        39 + 5 ≤ moving.program.header.globals.count.toNat ∧
          30 + 5 ≤ moving.program.header.globals.count.toNat) :=
  (operands_inside_iff moving_checked.1 moving_checked.2.1 moving_checked.2.2).1

theorem moving_past_globals :
    Validation.check moving.program = .ok () ∧
      moving.program.statements[1]? = some ⟨Opcode.move.code, 39, 5, 30⟩ ∧
      moving.program.header.globals.count.toNat ≤ moving.store.memory.words.size ∧
      ∃ x ∈ (⟨Opcode.move.code, 39, 5, 30⟩ : Statement).accesses {} moving.program 1 moving.store,
        ¬ x.Inside ⟨Opcode.move.code, 39, 5, 30⟩ moving.program.header.globals.count.toNat := by
  have accessed : ⟨.a, 5⟩ ∈ (⟨Opcode.move.code, 39, 5, 30⟩ : Statement).accesses {}
      moving.program 1 moving.store := by decide +kernel
  have globals : ¬ 40 < moving.program.header.globals.count.toNat := by decide +kernel
  refine ⟨moving_checked.1, moving_checked.2.1, moving_checked.2.2, _, accessed, ?_⟩
  intro inside
  exact globals (inside .a rfl 40 (by decide) (by decide))

end GameBytecode
