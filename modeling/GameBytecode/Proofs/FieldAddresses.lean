import GameBytecode.Proofs.ControlRestored
import GameBytecode.Proofs.FaultOrigin
import GameBytecode.Proofs.RegionIsolation
import Mathlib.Data.List.Basic

/-!
The sums behind the address of a field. They are computed with 64 bits, which hold them all but in one
case: entities so large that a record takes 2^32 words, which only a layout for no entity at all can
have, the least of all entity numbers, and a field that lies before the first word of memory. The last
sum then overflows, which ends the process.
-/
namespace GameBytecode
namespace Word

theorem toSigned_range (w : Word) : -0x80000000 ≤ toSigned w ∧ toSigned w < 0x80000000 :=
  ⟨w.toInt32.le_toInt, w.toInt32.toInt_lt⟩

end Word

namespace Layout

/-- What is computed on the way to the address of a field, the address last. -/
def partials (l : Layout) (entity field : Int) : List Int :=
  [entity * l.stride, l.entityBase + entity * l.stride, l.fieldWord entity field]

/-- The address of the field lies below all that 64 bits hold. -/
def Underflows (l : Layout) (entity field : Int) : Prop :=
  l.fields = 0xffffffff ∧ entity = -0x80000000 ∧ l.entityBase + field < 0

instance (l : Layout) (entity field : Int) : Decidable (l.Underflows entity field) :=
  inferInstanceAs (Decidable (_ ∧ _ ∧ _))

section bounds
variable {globals fields : UInt32} {capacity heapBytes : Nat} {l : Layout} {entity field : Int}

/-- Records are shorter than 2^32 words but for the largest count of fields there is. -/
theorem stride_cases (made : make globals.toNat fields.toNat capacity heapBytes = .ok l) :
    l.fields ≠ 0xffffffff ∧ l.stride ≤ 0xfffffffe ∨
      l.fields = 0xffffffff ∧ l.stride = 0x100000000 := by
  obtain ⟨⟨-, fieldCount, -⟩, -, stride, -⟩ := make_ok made
  have small := fields.toNat_lt
  rw [alignUp] at stride
  omega

theorem record_range (low : -0x80000000 ≤ entity) (high : entity < 0x80000000) :
    -0x80000000 * (l.stride : Int) ≤ entity * l.stride ∧
      entity * l.stride ≤ 0x7fffffff * l.stride :=
  have stride : (0 : Int) ≤ l.stride := Int.natCast_nonneg _
  ⟨Int.mul_le_mul_of_nonneg_right low stride,
    Int.mul_le_mul_of_nonneg_right (Int.le_of_lt_add_one high) stride⟩

/-- The start of a record always fits. The field behind it leaves the range only downwards, by less than
2^31. -/
theorem partials_range (made : make globals.toNat fields.toNat capacity heapBytes = .ok l)
    (entityLow : -0x80000000 ≤ entity) (entityHigh : entity < 0x80000000)
    (fieldLow : -0x80000000 ≤ field) (fieldHigh : field < 0x80000000) :
    Holds (entity * l.stride) ∧ Holds (l.entityBase + entity * l.stride) ∧
      (¬ l.Underflows entity field → Holds (l.fieldWord entity field)) ∧
      (l.Underflows entity field → -0x8000000080000000 ≤ l.fieldWord entity field ∧
        l.fieldWord entity field < -0x8000000000000000) := by
  have ordered := ordered_of_make made
  have base : l.entityBase ≤ 0x7fffffff := by
    have := ordered.entities
    have := ordered.heap
    have := ordered.total_le
    omega
  obtain ⟨productLow, productHigh⟩ := record_range (l := l) entityLow entityHigh
  simp only [Holds, Underflows, fieldWord]
  rcases stride_cases made with ⟨apart, small⟩ | ⟨all, large⟩
  · omega
  · rw [large] at productLow productHigh ⊢
    omega

theorem partials_hold_iff (made : make globals.toNat fields.toNat capacity heapBytes = .ok l)
    (entityLow : -0x80000000 ≤ entity) (entityHigh : entity < 0x80000000)
    (fieldLow : -0x80000000 ≤ field) (fieldHigh : field < 0x80000000) :
    (∀ n ∈ l.partials entity field, Holds n) ↔ ¬ l.Underflows entity field := by
  obtain ⟨product, record, fits, below⟩ :=
    partials_range made entityLow entityHigh fieldLow fieldHigh
  constructor
  · intro all under
    have last : Holds (l.fieldWord entity field) := all _ (by simp [partials])
    exact absurd last.1 (Int.not_le.mpr (below under).2)
  · intro apart
    simp [partials, product, record, fits apart]

theorem fieldAddress_cases (made : make globals.toNat fields.toNat capacity heapBytes = .ok l)
    (entityLow : -0x80000000 ≤ entity) (entityHigh : entity < 0x80000000)
    (fieldLow : -0x80000000 ≤ field) (fieldHigh : field < 0x80000000) :
    (¬ l.Underflows entity field → l.fieldAddress entity field = .ok (l.fieldWord entity field)) ∧
      (l.Underflows entity field → l.fieldAddress entity field = .error (.overflow "add")) := by
  obtain ⟨product, record, fits, below⟩ :=
    partials_range made entityLow entityHigh fieldLow fieldHigh
  have small : l.stride < 0x8000000000000000 := by
    have := stride_cases made
    omega
  rw [fieldAddress_eq_checked small product record, checked]
  refine ⟨fun apart => if_pos (fits apart), fun under => if_neg fun holds => ?_⟩
  exact absurd holds.1 (Int.not_le.mpr (below under).2)

theorem capacity_of_underflows (made : make globals.toNat fields.toNat capacity heapBytes = .ok l)
    (under : l.Underflows entity field) : l.capacity = 0 := by
  have large : l.stride = 0x100000000 := by
    have := stride_cases made
    have := under.1
    omega
  have ordered := ordered_of_make made
  have entities := ordered.entities
  have heap := ordered.heap
  have total := ordered.total_le
  rw [large] at entities
  omega

theorem entityAddress_overflow_iff
    (made : make globals.toNat fields.toNat capacity heapBytes = .ok l)
    (entityLow : -0x80000000 ≤ entity) (entityHigh : entity < 0x80000000)
    (fieldLow : -0x80000000 ≤ field) (fieldHigh : field < 0x80000000) (bounds : Bool) (width : Nat)
    (operation : String) :
    entityAddress l bounds entity field width = .error (.overflow operation) ↔
      operation = "add" ∧ bounds = false ∧ l.Underflows entity field := by
  obtain ⟨fits, overflows⟩ := fieldAddress_cases made entityLow entityHigh fieldLow fieldHigh
  by_cases under : l.Underflows entity field
  · -- there is no entity, so that bounds checks refuse the access
    have absent : l.hasEntity entity = false := by
      simp [hasEntity, under.2.1]
    cases bounds <;> simp [entityAddress, absent, under, overflows under, eq_comm]
  · simp only [entityAddress, fits under, under, and_false, iff_false]
    split
    · exact fun same => by cases same
    · split
      · exact fun same => by cases same
      · exact fun same => by cases same

end bounds
end Layout

open Layout in
/-- The address of a field in a loaded module, for any words that name an entity and a field. All numbers
computed on the way are in the range of 64 bits, and the address is the one asked for, unless
`Underflows` holds. Where it does hold there is no entity, and only the last sum leaves the range, which
ends the process, so that no builtin can go on from it; an access whose bounds are checked does not come
to that. -/
theorem field_address_range {image : Text.Bytes} {capacity heapBytes : Nat} {m : Module}
    (loaded : Image.load image capacity heapBytes = .ok m) (entity field : Word) :
    ((∀ n ∈ m.layout.partials (Word.toSigned entity) (Word.toSigned field), Holds n) ↔
      ¬ m.layout.Underflows (Word.toSigned entity) (Word.toSigned field)) ∧
    (¬ m.layout.Underflows (Word.toSigned entity) (Word.toSigned field) →
      m.layout.fieldAddress (Word.toSigned entity) (Word.toSigned field) =
        .ok (m.layout.fieldWord (Word.toSigned entity) (Word.toSigned field))) ∧
    (m.layout.Underflows (Word.toSigned entity) (Word.toSigned field) →
      m.layout.capacity = 0 ∧
      Holds (m.layout.entityBase + Word.toSigned entity * m.layout.stride) ∧
      m.layout.fieldWord (Word.toSigned entity) (Word.toSigned field) < -0x8000000000000000 ∧
      m.layout.fieldAddress (Word.toSigned entity) (Word.toSigned field) =
        .error (.overflow "add") ∧
      (Fault.overflow "add").Uncaught) ∧
    ∀ bounds width operation,
      entityAddress m.layout bounds (Word.toSigned entity) (Word.toSigned field) width =
          .error (.overflow operation) ↔
        operation = "add" ∧ bounds = false ∧
          m.layout.Underflows (Word.toSigned entity) (Word.toSigned field) := by
  have made := Image.load_layout loaded
  obtain ⟨entityLow, entityHigh⟩ := Word.toSigned_range entity
  obtain ⟨fieldLow, fieldHigh⟩ := Word.toSigned_range field
  obtain ⟨-, record, -, below⟩ :=
    partials_range made entityLow entityHigh fieldLow fieldHigh
  obtain ⟨fits, overflows⟩ := fieldAddress_cases made entityLow entityHigh fieldLow fieldHigh
  refine ⟨partials_hold_iff made entityLow entityHigh fieldLow fieldHigh, fits, fun under => ?_, ?_⟩
  · exact ⟨capacity_of_underflows made under, record, (below under).2, overflows under,
      Fault.uncaught_of_isFatal rfl⟩
  · exact entityAddress_overflow_iff made entityLow entityHigh fieldLow fieldHigh

/-- A module for entities of 2^32 words each, and so for none. Global 28 holds the least entity number,
global 29 the least place of a field, and the statement loads a float from there. -/
def farBuilder : Builder :=
  { Builder.built
      [.addGlobal "self" (.entity 0x80000000), .addGlobal "place" (.field 0x80000000),
        .addGlobal "found" (.float 0), .pushStatements [⟨(Opcode.load .float).code, 28, 29, 30⟩]] with
    entityFields := 0xffffffff }

theorem far_loads : (Machine.load farBuilder.bytes 0 0 {}).toOption.isSome := by decide +kernel

def farMachine : Machine := (Machine.load farBuilder.bytes 0 0 {}).toOption.get far_loads

theorem far_loaded : Image.load farBuilder.bytes 0 0 = .ok farMachine.program :=
  (Machine.load_ok (Session.eq_ok_get far_loads)).1.1

/-- The least entity and the least field of the module: the address overflows. -/
theorem far_range :
    farMachine.program.layout.Underflows (Word.toSigned 0x80000000) (Word.toSigned 0x80000000) ∧
    farMachine.program.layout.fieldAddress (Word.toSigned 0x80000000) (Word.toSigned 0x80000000) =
      .error (.overflow "add") := by
  have under : farMachine.program.layout.Underflows (Word.toSigned 0x80000000)
      (Word.toSigned 0x80000000) := by decide +kernel
  obtain ⟨-, -, overflows, -⟩ := field_address_range far_loaded 0x80000000 0x80000000
  exact ⟨under, (overflows under).2.2.2.1⟩

/-- The load of the module. One of the numbers on the way to its address is not in the range of 64 bits,
and computing it ends the process. -/
theorem far_leaves_range :
    Image.load farBuilder.bytes 0 0 = .ok farMachine.program ∧
    farMachine.program.statements[1]? = some ⟨(Opcode.load .float).code, 28, 29, 30⟩ ∧
    farMachine.store.memory.words[28]? = some 0x80000000 ∧
    farMachine.store.memory.words[29]? = some 0x80000000 ∧
    ¬ (∀ n ∈ farMachine.program.layout.partials (Word.toSigned 0x80000000)
      (Word.toSigned 0x80000000), Layout.Holds n) ∧
    (step {} farMachine.program 1 ⟨(Opcode.load .float).code, 28, 29, 30⟩ farMachine.store).1 =
      .error (.overflow "add") :=
  ⟨far_loaded, by decide +kernel⟩

end GameBytecode
