import GameBytecode.Proofs.BuilderHistory
import GameBytecode.Proofs.OperandSpans
import GameBytecode.Proofs.StepCases

/-!
The regions of memory keep apart. A layout puts globals, entity records and heap one behind another,
and a field inside an entity lies in the record of that entity alone. With bounds checks on, a
statement that loads a field reads no other record, and one that sets the state of an entity writes
to no other.
-/
namespace GameBytecode
namespace Layout

/-- Globals, entity records and heap one behind another, each from an even word on, and all at
addresses that a signed word can hold. -/
structure Ordered (l : Layout) : Prop where
  globals_le : l.globals ≤ l.entityBase
  entityBase_even : l.entityBase % 2 = 0
  fields_le : l.fields ≤ l.stride
  entities : l.heapBase = l.entityBase + l.stride * l.capacity
  heapBase_even : l.heapBase % 2 = 0
  heap : l.total = l.heapBase + l.heapWords
  total_le : l.total ≤ 0x7fffffff

/-- A run of words inside the record of an entity, with no global in it, no word of the heap and no
word of another record. -/
structure Isolated (l : Layout) (entity address : Int) (width : Nat) : Prop where
  present : l.hasEntity entity
  own : l.fieldWord entity 0 ≤ address ∧ address + width ≤ l.fieldWord entity 0 + l.fields
  globals : l.globals ≤ address
  heap : address + width ≤ l.heapBase
  others : ∀ other ≠ entity,
    address + width ≤ l.fieldWord other 0 ∨ l.fieldWord other 0 + l.stride ≤ address

theorem make_ok {globals fields capacity heapBytes : Nat} {l : Layout}
    (h : make globals fields capacity heapBytes = .ok l) :
    (l.globals = globals ∧ l.fields = fields ∧ l.capacity = capacity) ∧
      l.entityBase = alignUp globals ∧ l.stride = alignUp fields ∧
      l.heapWords = alignUp ((heapBytes + 3) / 4) ∧
      l.heapBase = l.entityBase + l.stride * l.capacity ∧
      l.total = l.heapBase + l.heapWords ∧ l.total ≤ maxWords := by
  simp only [make] at h
  split at h
  · cases h
  · cases h
    exact ⟨⟨rfl, rfl, rfl⟩, rfl, rfl, rfl, rfl, rfl, Nat.not_lt.mp ‹_›⟩

theorem ordered_of_make {globals fields : UInt32} {capacity heapBytes : Nat} {l : Layout}
    (h : make globals.toNat fields.toNat capacity heapBytes = .ok l) : l.Ordered := by
  obtain ⟨⟨hg, hf, -⟩, base, stride, -, entities, heap, total⟩ := make_ok h
  have := globals.toNat_lt
  have := fields.toNat_lt
  rw [alignUp] at base stride
  have even : l.stride * l.capacity % 2 = 0 := by
    rw [stride, Nat.mul_right_comm]
    exact Nat.mul_mod_left _ 2
  exact
    { globals_le := by omega
      entityBase_even := by omega
      fields_le := by omega
      entities
      heapBase_even := by omega
      heap
      total_le := total }

/-- Where the record of an entity can be found, only the last sum decides. -/
theorem fieldAddress_eq_checked {l : Layout} {entity field : Int}
    (small : l.stride < 0x8000000000000000) (product : Holds (entity * l.stride))
    (record : Holds (l.entityBase + entity * l.stride)) :
    l.fieldAddress entity field = checked "add" (l.fieldWord entity field) := by
  have stride : (l.stride : Int).bmod 0x10000000000000000 = l.stride :=
    Int.bmod_eq_of_le (by omega) (by omega)
  have multiplied : checked "multiply" (entity * l.stride) = .ok (entity * l.stride) := if_pos product
  have added : checked "add" (l.entityBase + entity * l.stride) =
      .ok (l.entityBase + entity * l.stride) := if_pos record
  rw [fieldAddress, stride, multiplied]
  simp only [bind, Except.bind, added, fieldWord]

namespace Ordered
variable {l : Layout} {entity field : Int} {width : Nat}

theorem record_inside (h : l.Ordered) (he : l.hasEntity entity) :
    l.globals ≤ l.fieldWord entity 0 ∧ l.fieldWord entity 0 + l.stride ≤ l.heapBase := by
  simp only [hasEntity, Bool.and_eq_true, decide_eq_true_eq] at he
  obtain ⟨number, rfl⟩ := Int.eq_ofNat_of_zero_le he.1
  have inside : (number + 1) * l.stride ≤ l.capacity * l.stride :=
    Nat.mul_le_mul_right _ (by omega)
  rw [Nat.succ_mul, Nat.mul_comm l.capacity] at inside
  have below := h.globals_le
  have behind := h.entities
  simp only [fieldWord, ← Int.natCast_mul]
  omega

/-- The records of two entities share no word. -/
theorem records_apart {other : Int} (ho : other ≠ entity) :
    l.fieldWord entity 0 + l.stride ≤ l.fieldWord other 0 ∨
      l.fieldWord other 0 + l.stride ≤ l.fieldWord entity 0 := by
  have apart {low high : Int} (hl : low < high) : low * l.stride + l.stride ≤ high * l.stride := by
    have next : (low + 1) * l.stride ≤ high * l.stride :=
      Int.mul_le_mul_of_nonneg_right hl (Int.natCast_nonneg _)
    rwa [Int.add_mul, Int.one_mul] at next
  simp only [fieldWord]
  rcases Int.lt_or_gt_of_ne ho with hl | hl
  · have := apart hl
    omega
  · have := apart hl
    omega

theorem fieldAddress_eq (h : l.Ordered) (he : l.hasEntity entity) (hf : l.hasField field width) :
    l.fieldAddress entity field = .ok (l.fieldWord entity field) := by
  obtain ⟨low, high⟩ := h.record_inside he
  have fits := h.fields_le
  have end_le := h.heap
  have total := h.total_le
  have base : l.entityBase ≤ l.heapBase := by
    rw [h.entities]
    exact Nat.le_add_right ..
  have start : l.fieldWord entity 0 = l.entityBase + entity * l.stride := Int.add_zero _
  simp only [hasField, Bool.and_eq_true, decide_eq_true_eq] at hf
  rw [start] at low high
  rw [fieldAddress_eq_checked (by omega) (by rw [Holds]; omega) (by rw [Holds]; omega), checked, if_pos]
  rw [Holds, fieldWord]
  omega

theorem isolated (h : l.Ordered) (he : l.hasEntity entity) (hf : l.hasField field width) :
    l.Isolated entity (l.fieldWord entity field) width := by
  have word : l.fieldWord entity field = l.fieldWord entity 0 + field := by
    simp only [fieldWord, Int.add_zero]
  rw [word]
  obtain ⟨low, high⟩ := h.record_inside he
  have fits := h.fields_le
  simp only [hasField, Bool.and_eq_true, decide_eq_true_eq] at hf
  exact
    { present := he
      own := by omega
      globals := by omega
      heap := by omega
      others := fun other ho => by
        rcases records_apart (l := l) ho with apart | apart <;> omega }

end Ordered
end Layout

theorem entityAddress_ok {l : Layout} {entity field address : Int} {width : Nat}
    (h : entityAddress l true entity field width = .ok address) :
    l.hasEntity entity ∧ l.hasField field width ∧ l.fieldAddress entity field = .ok address := by
  unfold entityAddress at h
  cases he : l.hasEntity entity with
  | false => simp [he] at h
  | true =>
    cases hf : l.hasField field width with
    | false => simp [he, hf] at h
    | true =>
      simp only [he, hf, Bool.not_true, Bool.and_false, Bool.false_eq_true, if_false] at h
      exact ⟨rfl, rfl, h⟩

theorem Memory.slice_of_inside {memory : Memory} {address : Int} {count : Nat} (low : 0 ≤ address)
    (high : address + count ≤ memory.words.size) : ∃ ws, memory.slice address count = .ok ws := by
  obtain ⟨n, rfl⟩ := Int.eq_ofNat_of_zero_le low
  exact ⟨_, slice_ok (by omega)⟩

namespace Plan
variable {α β : Type} {s : Statement} {P : Access → Prop}

theorem All.except_bind {x : Except Fault α} {f : α → Plan β} (h : ∀ a, x = .ok a → (f a).All P) :
    (Plan.ofExcept x >>= f).All P := by
  cases x with
  | error e => trivial
  | ok a => exact h a rfl

/-- Every write that a plan can come to has a property. -/
def Writes (P : Access → Prop) : Plan α → Prop
  | done _ | fail _ => True
  | read _ _ k => ∀ ws, (k ws).Writes P
  | write place words k => P ⟨place, words.length⟩ ∧ k.Writes P
  | observe _ k => ∀ answer, (k answer).Writes P
  | concat _ _ k => ∀ joined, (k joined).Writes P

theorem Writes.except_bind {x : Except Fault α} {f : α → Plan β}
    (h : ∀ a, x = .ok a → (f a).Writes P) : (ofExcept x >>= f).Writes P := by
  cases x with
  | error e => trivial
  | ok a => exact h a rfl

theorem Writes.writes {p : Plan α} (hp : p.Writes P) (st : Store) : ∀ x ∈ p.writes s st, P x := by
  induction p generalizing st with
  | done a =>
    intro x hx
    cases hx
  | fail e =>
    intro x hx
    cases hx
  | read place count k ih =>
    simp only [Plan.writes]
    split
    · intro x hx
      cases hx
    · exact ih _ (hp _) st
  | write place words k ih =>
    obtain ⟨memory, strings⟩ := st
    simp only [Plan.writes]
    rw [List.forall_mem_cons]
    refine ⟨hp.1, ?_⟩
    split
    · intro x hx
      cases hx
    · exact ih hp.2 _
  | observe f k ih =>
    simp only [Plan.writes]
    split
    · intro x hx
      cases hx
    · exact ih _ (hp _) st
  | concat r t k ih =>
    obtain ⟨memory, strings⟩ := st
    simp only [Plan.writes]
    split
    · intro x hx
      cases hx
    · exact ih _ (hp _) _

theorem run_refused {P : Fault → Prop} {p : Plan α} (own : p.Ends P fun _ => True)
    (joins : ∀ i, P (.invalidString i)) {st : Store} {e : Fault}
    (h : (p.run s st).1 = .error e) :
    P e ∨ ∃ x ∈ p.accesses s st, st.memory.resolve (x.place.address s) x.count = .error e := by
  induction p generalizing st with
  | done a => cases h
  | fail e' =>
    cases h
    exact .inl own
  | read place count k ih =>
    simp only [run] at h
    simp only [accesses]
    cases hs : st.memory.slice (place.address s) count with
    | error e' =>
      rw [hs] at h
      cases h
      refine .inr ⟨_, List.mem_cons_self, ?_⟩
      simp only [Memory.slice] at hs
      cases hr : st.memory.resolve (place.address s) count with
      | ok i => rw [hr] at hs; cases hs
      | error e' =>
        rw [hr] at hs
        cases hs
        rfl
    | ok ws =>
      rw [hs] at h
      rcases ih ws (own ws) h with he | ⟨x, hx, hr⟩
      · exact .inl he
      · exact .inr ⟨x, List.mem_cons_of_mem _ hx, hr⟩
  | write place words k ih =>
    obtain ⟨memory, strings⟩ := st
    simp only [run] at h
    simp only [accesses]
    cases hw : memory.resolve (place.address s) words.length with
    | error e' =>
      rw [hw] at h
      cases h
      exact .inr ⟨_, List.mem_cons_self, hw⟩
    | ok i =>
      rw [hw] at h
      rcases ih own h with he | ⟨x, hx, hr⟩
      · exact .inl he
      · refine .inr ⟨x, List.mem_cons_of_mem _ hx, ?_⟩
        unfold Memory.resolve Memory.size at hr ⊢
        rwa [Memory.size_setWords] at hr
  | observe f k ih =>
    simp only [run] at h
    simp only [accesses]
    cases hf : f st.strings with
    | error e' =>
      rw [hf] at h
      cases h
      exact .inl (own.1 _ _ hf)
    | ok answer =>
      rw [hf] at h
      exact ih answer (own.2 answer) h
  | concat r t k ih =>
    obtain ⟨memory, strings⟩ := st
    simp only [run] at h
    simp only [accesses]
    cases hc : strings.concat r t with
    | error e' =>
      rw [hc] at h
      cases h
      obtain ⟨i, rfl⟩ := StringArena.concat_error hc
      exact .inl (joins i)
    | ok joined =>
      rw [hc] at h
      exact ih joined.1 (own joined.1) h

end Plan

theorem Step.binding_writes {α : Type} {Q : Access → Prop} {s : Statement} {st : Store}
    {name : String} {address : Option Nat} {f : Nat → Plan α}
    (h : ∀ a, address = some a → ∀ x ∈ (f a).writes s st, Q x) :
    ∀ x ∈ (binding name address >>= f).writes s st, Q x := by
  cases address with
  | none =>
    intro x hx
    cases hx
  | some a => exact h a rfl

/-- The accesses of a statement on a store that write, in order. What a return hands over is written
by the run. -/
def Statement.writes (settings : Settings) (m : Module) (index : Nat) (s : Statement) (st : Store) :
    List Access :=
  match Opcode.ofCode? s.op with
  | none => []
  | some op => (Step.effect settings m index s op).writes s st

section statement
variable {settings : Settings} {m : Module} {index : Nat} {s : Statement} {st : Store} {cell : Cell}

theorem step_unwritten {w : Nat} (h : ∀ x ∈ s.writes settings m index st, ¬ x.Touches s w) :
    (step settings m index s st).2.memory.words[w]? = st.memory.words[w]? := by
  unfold Statement.writes at h
  unfold step
  cases ho : Opcode.ofCode? s.op with
  | none => rfl
  | some op =>
    rw [ho] at h
    exact Plan.run_unwritten h

/-- An access to words that an entity has to itself. -/
def Access.Owned (l : Layout) (entity : Int) (x : Access) : Prop :=
  ∃ address, x.place = .found address ∧ l.Isolated entity address x.count

/-- An access at an operand or to such words. -/
def Access.Resident (l : Layout) (entity : Int) (x : Access) : Prop :=
  (∃ slot, x.place = .operand slot) ∨ x.Owned l entity

theorem Access.owned_of_entityAddress {entity field address : Int} {width : Nat}
    (ordered : m.layout.Ordered) (h : entityAddress m.layout true entity field width = .ok address) :
    Access.Owned m.layout entity ⟨.found address, width⟩ := by
  obtain ⟨hasEntity, hasField, found⟩ := entityAddress_ok h
  cases (ordered.fieldAddress_eq hasEntity hasField).symm.trans found
  exact ⟨_, rfl, ordered.isolated hasEntity hasField⟩

/-- A load reads, besides its operands, words of the entity that its first operand names. -/
theorem load_accesses (ordered : m.layout.Ordered) (bounds : settings.boundsCheck = true)
    (ho : Opcode.ofCode? s.op = some (.load cell)) :
    ∀ x ∈ s.accesses settings m index st, (∃ slot, x.place = .operand slot) ∨
      ∃ address entity, x.place = .found address ∧ st.memory.read s.a.toNat = .ok entity ∧
        m.layout.Isolated (Word.toSigned entity) address x.count := by
  have body : s.accesses settings m index st =
      (Step.effect settings m index s (.load cell)).accesses s st := by
    unfold Statement.accesses
    rw [ho]
    dsimp only
    split
    · rename_i control hc
      have sends : control = .next := (step_sends settings m index st ho).1 control hc
      rw [sends]
      exact List.append_nil _
    · exact List.append_nil _
  rw [body]
  simp only [Step.effect, Plan.integer, Plan.word, Plan.read_bind, Plan.done_bind, Plan.lift_eq,
    Plan.pure_eq, bounds, Plan.accesses]
  rw [List.forall_mem_cons]
  refine ⟨.inl ⟨.a, rfl⟩, ?_⟩
  split
  · intro x hx
    cases hx
  rename_i words hs
  have named : st.memory.read s.a.toNat = .ok (words.headD 0) := Memory.read_of_slice hs
  rw [List.forall_mem_cons]
  refine ⟨.inl ⟨.b, rfl⟩, ?_⟩
  split
  · intro x hx
    cases hx
  rename_i field _
  intro x hx
  have resident : x.Resident m.layout (Word.toSigned (words.headD 0)) := by
    refine Plan.All.accesses (Plan.All.except_bind ?_) st x hx
    intro address he
    exact .bind (Step.copy_all (.inr (Access.owned_of_entityAddress ordered he)) (.inl ⟨.c, rfl⟩))
      fun _ => trivial
  rcases resident with operand | ⟨address, found, isolated⟩
  · exact .inl operand
  · exact .inr ⟨address, _, found, named, isolated⟩

/-- A load that faults at an address faults at an operand: what it loads from is in memory. -/
theorem load_refused (ordered : m.layout.Ordered) (bounds : settings.boundsCheck = true)
    (size : m.layout.total ≤ st.memory.words.size) (ho : Opcode.ofCode? s.op = some (.load cell))
    {address : Int} (h : (step settings m index s st).1 = .error (.invalidGlobal address)) :
    ∃ slot count, ⟨.operand slot, count⟩ ∈ s.accesses settings m index st ∧
      st.memory.resolve (s.slot slot).toNat count = .error (.invalidGlobal address) := by
  have own : (Step.effect settings m index s (.load cell)).Ends
      (fun e => e ≠ .invalidGlobal address) fun _ => True := by
    simp only [Step.effect, Plan.integer, Plan.word, Plan.read_bind, Plan.done_bind, Plan.lift_eq,
      Plan.pure_eq, Plan.Ends]
    intro entity field
    refine .bind (.ofExcept ?_) fun address _ _ => trivial
    intro e he
    unfold entityAddress at he
    split at he
    · cases he
      exact Fault.noConfusion
    · split at he
      · cases he
        exact Fault.noConfusion
      · obtain ⟨operation, rfl⟩ := Layout.fieldAddress_error he
        exact Fault.noConfusion
  have refused : ∃ x ∈ s.accesses settings m index st,
      st.memory.resolve (x.place.address s) x.count = .error (.invalidGlobal address) := by
    unfold step at h
    unfold Statement.accesses
    rw [ho] at h ⊢
    rcases Plan.run_refused own (fun i => Fault.noConfusion) h with he | ⟨x, hx, hr⟩
    · exact absurd rfl he
    · exact ⟨x, List.mem_append_left _ hx, hr⟩
  obtain ⟨⟨place, count⟩, hx, hr⟩ := refused
  rcases load_accesses ordered bounds ho _ hx with ⟨slot, rfl⟩ | ⟨source, entity, rfl, -, isolated⟩
  · exact ⟨slot, count, hx, hr⟩
  · obtain ⟨ws, hs⟩ : ∃ ws, st.memory.slice source count = .ok ws := by
      have low := isolated.globals
      have high := isolated.heap
      have heap := ordered.heap
      exact Memory.slice_of_inside (by omega) (by dsimp only at high; omega)
    simp only [Memory.slice] at hs
    rw [show st.memory.resolve source count = .error (.invalidGlobal address) from hr] at hs
    cases hs

/-- A statement that sets the state of an entity writes to the entity that self names. -/
theorem state_writes (ordered : m.layout.Ordered) (bounds : settings.boundsCheck = true)
    (ho : Opcode.ofCode? s.op = some .state) :
    ∀ x ∈ s.writes settings m index st, ∃ address self entity, x.place = .found address ∧
      m.bindings.self = some self ∧ st.memory.read self = .ok entity ∧
      m.layout.Isolated (Word.toSigned entity) address x.count := by
  unfold Statement.writes
  rw [ho]
  simp only [Step.effect]
  apply Step.binding_writes
  intro self hself
  apply Step.binding_writes
  intro time _
  apply Step.binding_writes
  intro nextThink _
  apply Step.binding_writes
  intro frame _
  apply Step.binding_writes
  intro think _
  simp only [Plan.integer, Plan.word, Plan.putWord, Plan.put, Plan.read_bind, Plan.done_bind,
    Plan.write_bind, Plan.lift_eq, Plan.pure_eq, bounds]
  intro x hx
  rw [Plan.writes] at hx
  split at hx
  · cases hx
  rename_i words hs
  have named : st.memory.read self = .ok (words.headD 0) := Memory.read_of_slice hs
  generalize words.headD 0 = entity at hx named
  have own {offset : Int} {address : Int}
      (he : entityAddress m.layout true (Word.toSigned entity) offset 1 = .ok address) :
      Access.Owned m.layout (Word.toSigned entity) ⟨.found address, 1⟩ :=
    Access.owned_of_entityAddress ordered he
  have owned : x.Owned m.layout (Word.toSigned entity) := by
    refine Plan.Writes.writes ?_ st x hx
    exact fun now number function => .except_bind fun first h1 => ⟨own h1,
      .except_bind fun second h2 => ⟨own h2, .except_bind fun third h3 => ⟨own h3, trivial⟩⟩⟩
  obtain ⟨address, found, isolated⟩ := owned
  exact ⟨address, self, entity, found, hself, named, isolated⟩

end statement

/-- The regions of every layout follow one another, and the words of a field of an entity are its own.
So on every memory of the layout a load that faults at an address does so at an operand, and reads
nothing else but the record of its entity; and setting a state writes to the record of self alone. -/
theorem Layout.regions_isolated {globals fields : UInt32} {capacity heapBytes : Nat} {l : Layout}
    (made : make globals.toNat fields.toNat capacity heapBytes = .ok l) :
    (l.globals = globals.toNat ∧ l.fields = fields.toNat ∧ l.capacity = capacity) ∧ l.Ordered ∧
    (∀ entity field width, l.hasEntity entity → l.hasField field width →
      ∃ address, l.fieldAddress entity field = .ok address ∧ l.Isolated entity address width) ∧
    ∀ (settings : Settings) (m : Module) (index : Nat) (s : Statement) (st : Store),
      settings.boundsCheck = true → m.layout = l → l.total ≤ st.memory.words.size →
      (∀ cell, Opcode.ofCode? s.op = some (.load cell) →
        (∀ x ∈ s.accesses settings m index st, (∃ slot, x.place = .operand slot) ∨
          ∃ address entity, x.place = .found address ∧ st.memory.read s.a.toNat = .ok entity ∧
            l.Isolated (Word.toSigned entity) address x.count) ∧
        ∀ address, (step settings m index s st).1 = .error (.invalidGlobal address) →
          ∃ slot count, ⟨.operand slot, count⟩ ∈ s.accesses settings m index st ∧
            st.memory.resolve (s.slot slot).toNat count = .error (.invalidGlobal address)) ∧
      (Opcode.ofCode? s.op = some .state →
        (∀ x ∈ s.writes settings m index st, ∃ address self entity, x.place = .found address ∧
          m.bindings.self = some self ∧ st.memory.read self = .ok entity ∧
            l.Isolated (Word.toSigned entity) address x.count) ∧
        ∀ w : Nat, (step settings m index s st).2.memory.words[w]? ≠ st.memory.words[w]? →
          ∃ x ∈ s.writes settings m index st, x.Touches s w) := by
  have ordered := ordered_of_make made
  refine ⟨(make_ok made).1, ordered, fun entity field width he hf =>
    ⟨_, ordered.fieldAddress_eq he hf, ordered.isolated he hf⟩, ?_⟩
  rintro settings m index s st bounds rfl size
  refine ⟨fun cell ho => ⟨load_accesses ordered bounds ho, fun address h => ?_⟩, fun ho => ?_⟩
  · exact load_refused ordered bounds size ho h
  · refine ⟨state_writes ordered bounds ho, fun w changed => ?_⟩
    apply Classical.byContradiction
    intro unwritten
    exact changed (step_unwritten fun x hx touches => unwritten ⟨x, hx, touches⟩)

theorem Image.load_layout {image : Text.Bytes} {capacity heapBytes : Nat} {m : Module}
    (h : Image.load image capacity heapBytes = .ok m) :
    Layout.make m.header.globals.count.toNat m.header.entityFields.toNat capacity heapBytes =
      .ok m.layout := by
  simp only [Image.load] at h
  obtain ⟨header, -, h⟩ := ok_of_bind h
  split at h
  · cases h
  obtain ⟨statements, -, h⟩ := ok_of_bind h
  obtain ⟨functions, -, h⟩ := ok_of_bind h
  obtain ⟨globalDefs, -, h⟩ := ok_of_bind h
  obtain ⟨fieldDefs, -, h⟩ := ok_of_bind h
  split at h
  · cases h
  obtain ⟨strings, -, h⟩ := ok_of_bind h
  obtain ⟨globals, -, h⟩ := ok_of_bind h
  obtain ⟨layout, made, h⟩ := ok_of_bind h
  cases h
  exact made

/-- The memory is the one that the layout of the program asks for. -/
structure Machine.Housed (v : Machine) : Prop where
  ordered : v.program.layout.Ordered
  size : v.store.memory.words.size = v.program.layout.total

theorem Machine.housed_of_load {image : Text.Bytes} {capacity heapBytes : Nat} {settings : Settings}
    {v : Machine} (h : load image capacity heapBytes settings = .ok v) : v.Housed := by
  obtain ⟨⟨loaded, -⟩, initial, -⟩ := load_ok h
  refine ⟨Layout.ordered_of_make (Image.load_layout loaded), ?_⟩
  unfold initialMemory at initial
  cases ha : Memory.allocate v.program.layout.total with
  | error e => rw [ha] at initial; cases initial
  | ok memory =>
    rw [ha] at initial
    rw [← Except.ok.inj initial, Memory.size_setWords]
    unfold Memory.allocate at ha
    split at ha
    · cases ha
    · cases ha
      exact Array.size_replicate

/-- A step keeps the size of memory and the program, or loads another module with a memory for it. -/
theorem Configuration.next_housed {c c' : Configuration} (h : c.machine.Housed)
    (hn : c.next = some c') : c'.machine.Housed := by
  rcases next_cognate hn with cognate | ⟨image, reloaded⟩
  · exact ⟨by rw [cognate.program]; exact h.ordered, by rw [cognate.size, cognate.program]; exact h.size⟩
  · obtain ⟨u, loaded, same⟩ := Machine.reload_ok reloaded
    have housed := Machine.housed_of_load loaded
    rw [same]
    exact ⟨housed.ordered, housed.size⟩

/-- A module whose entities end with a vector. Global 28 holds entity 3, global 29 the place of the
vector, and the other globals are the time, three words to load to, and what a state is set to. -/
def residentsBuilder : Builder := .built
  [.addGlobal "self" (.entity 3), .addGlobal "origin_field" (.field 3), .addGlobal "time" (.float 0),
    .addGlobal "origin" (.vector ⟨0, 0, 0⟩), .addGlobal "frame_number" (.float 0),
    .addGlobal "thinker" (.function 0), .addField "nextthink" .float, .addField "frame" .float,
    .addField "think" .function, .addField "origin" .vector,
    .pushStatements [⟨(Opcode.load .vector).code, 28, 29, 31⟩, ⟨Opcode.state.code, 34, 35, 0⟩]]

theorem residents_loads :
    (Machine.load residentsBuilder.bytes 4 10 { boundsCheck := true }).toOption.isSome := by
  decide +kernel

def residents : Machine :=
  (Machine.load residentsBuilder.bytes 4 10 { boundsCheck := true }).toOption.get residents_loads

theorem residents_isolated :
    Layout.make (36 : UInt32).toNat (6 : UInt32).toNat 4 10 = .ok residents.program.layout ∧
      residents.program.layout.total ≤ residents.store.memory.words.size ∧
      (∃ address, residents.program.layout.fieldAddress 3 3 = .ok address ∧
        residents.program.layout.Isolated 3 address 3) ∧
      (∀ x ∈ (⟨(Opcode.load .vector).code, 28, 29, 31⟩ : Statement).accesses { boundsCheck := true }
          residents.program 1 residents.store, (∃ slot, x.place = .operand slot) ∨
        ∃ address entity, x.place = .found address ∧
          residents.store.memory.read 28 = .ok entity ∧
          residents.program.layout.Isolated (Word.toSigned entity) address x.count) ∧
      ∀ x ∈ (⟨Opcode.state.code, 34, 35, 0⟩ : Statement).writes { boundsCheck := true }
          residents.program 2 residents.store,
        ∃ address self entity, x.place = .found address ∧
          residents.program.bindings.self = some self ∧
          residents.store.memory.read self = .ok entity ∧
          residents.program.layout.Isolated (Word.toSigned entity) address x.count := by
  obtain ⟨laid, housed, loading, setting⟩ :
      residents.program.layout = ⟨36, 36, 6, 4, 6, 60, 4, 64⟩ ∧
      residents.program.layout.total ≤ residents.store.memory.words.size ∧
      Opcode.ofCode? (Opcode.load .vector).code = some (.load .vector) ∧
      Opcode.ofCode? Opcode.state.code = some .state := by decide +kernel
  have made : Layout.make (36 : UInt32).toNat (6 : UInt32).toNat 4 10 =
      .ok residents.program.layout := by
    rw [laid]
    rfl
  obtain ⟨-, -, isolated, states⟩ := Layout.regions_isolated made
  have loads := (states { boundsCheck := true } residents.program 1
    ⟨(Opcode.load .vector).code, 28, 29, 31⟩ residents.store rfl rfl housed).1 .vector loading
  have sets := (states { boundsCheck := true } residents.program 2
    ⟨Opcode.state.code, 34, 35, 0⟩ residents.store rfl rfl housed).2 setting
  refine ⟨made, housed, isolated 3 3 3 ?_ ?_, loads.1, sets.1⟩
  · rw [laid]
    decide
  · rw [laid]
    decide

end GameBytecode
