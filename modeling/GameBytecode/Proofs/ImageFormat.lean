import GameBytecode.Image
import GameBytecode.Proofs.RecordBytes
import Mathlib.Data.Nat.Bitwise

/-!
The format of module images, stated on their bytes alone: the numbers of the header, what an image
has to fulfil, in the order in which it is looked at, and what its records are. The loader accepts
the images of this format and no others, and for any other image names what is wrong with it first.
-/
namespace GameBytecode
open Text (Bytes)

/-- The number that bytes write, the least significant first. -/
def littleEndian : Bytes → Nat
  | [] => 0
  | b :: rest => b.toNat + 0x100 * littleEndian rest

namespace Image

/-- The unsigned number in some bytes of an image. -/
def numberAt (image : Bytes) (offset width : Nat) : Nat :=
  littleEndian ((image.drop offset).take width)

/-- The signed number in four bytes of an image. -/
def signedAt (image : Bytes) (offset : Nat) : Int :=
  let n := numberAt image offset 4
  if n < 0x80000000 then n else n - 0x100000000

/-- A number of the header, by its place. -/
def headerWord (image : Bytes) (place : Nat) : Nat := numberAt image (4 * place) 4

end Image

open Image (numberAt signedAt)

structure Statement.LiesAt (image : Bytes) (place : Nat) (s : Statement) : Prop where
  op : s.op.toNat = numberAt image place 2
  a : s.a.toNat = numberAt image (place + 2) 2
  b : s.b.toNat = numberAt image (place + 4) 2
  c : s.c.toNat = numberAt image (place + 6) 2

structure FunctionRecord.LiesAt (image : Bytes) (place : Nat) (f : FunctionRecord) : Prop where
  entry : f.entry.toInt = signedAt image place
  start : f.start.toNat = numberAt image (place + 4) 4
  locals : f.locals.toNat = numberAt image (place + 8) 4
  profile : f.profile.toNat = numberAt image (place + 12) 4
  name : f.name.toInt = signedAt image (place + 16)
  file : f.file.toInt = signedAt image (place + 20)
  arity : f.arity.toInt = signedAt image (place + 24)
  sizes : ∀ i : Fin 8, f.sizes[i].toNat = numberAt image (place + 28 + i) 1

structure Def.LiesAt (image : Bytes) (place : Nat) (d : Def) : Prop where
  tag : d.tag.toNat = numberAt image place 2
  offset : d.offset.toNat = numberAt image (place + 2) 2
  name : d.name.toInt = signedAt image (place + 4)

namespace Record
variable {image : Bytes}

theorem drop_cons (image : Bytes) (place : Nat) (h : place < image.length) :
    ∃ b, image.drop place = b :: image.drop (place + 1) :=
  ⟨image[place], List.drop_eq_getElem_cons h⟩

theorem toNat_headD (image : Bytes) (place : Nat) (h : place + 1 ≤ image.length) :
    ((image.drop place).headD 0).toNat = numberAt image place 1 := by
  obtain ⟨b, first⟩ := drop_cons image place (by omega)
  simp only [numberAt, first, List.take, List.headD_cons, littleEndian, Nat.mul_zero, Nat.add_zero]

theorem toNat_toUInt16 {place : Nat} (h : place + 2 ≤ image.length) :
    (toUInt16 image place).toNat = numberAt image place 2 := by
  obtain ⟨a, first⟩ := drop_cons image place (by omega)
  obtain ⟨b, second⟩ := drop_cons image (place + 1) (by omega)
  simp only [toUInt16, numberAt, first, second, List.take, littleEndian]
  rw [toNat_join16]
  omega

theorem toNat_toUInt32 {place : Nat} (h : place + 4 ≤ image.length) :
    (toUInt32 image place).toNat = numberAt image place 4 := by
  obtain ⟨a, first⟩ := drop_cons image place (by omega)
  obtain ⟨b, second⟩ := drop_cons image (place + 1) (by omega)
  obtain ⟨c, third⟩ := drop_cons image (place + 2) (by omega)
  obtain ⟨d, fourth⟩ := drop_cons image (place + 3) (by omega)
  simp only [toUInt32, numberAt, first, second, third, fourth, List.take, littleEndian]
  rw [toNat_join32]
  omega

theorem toInt_toUInt32 {place : Nat} (h : place + 4 ≤ image.length) :
    (toUInt32 image place).toInt32.toInt = signedAt image place := by
  have bits : (toUInt32 image place).toInt32.toInt = (toUInt32 image place).toBitVec.toInt := rfl
  have value : (toUInt32 image place).toBitVec.toNat = numberAt image place 4 := toNat_toUInt32 h
  rw [bits, BitVec.toInt_eq_toNat_cond, value, signedAt]
  split <;> split <;> omega

theorem numberAt_record {place size offset width : Nat} (h : offset + width ≤ size) :
    numberAt ((image.drop place).take size) offset width =
      numberAt image (place + offset) width := by
  rw [numberAt, numberAt, List.drop_take, List.take_take, List.drop_drop,
    Nat.min_eq_left (by omega)]

theorem getD_eq_headD (bytes : Bytes) (i : Nat) : bytes.getD i 0 = (bytes.drop i).headD 0 := by
  rw [List.getD_eq_getElem?_getD, List.headD_eq_head?_getD, List.head?_drop]

/-- Every record of a size is read as what lies at its place. -/
def Decodes {α : Type} (size : Nat) (read : Bytes → α) (liesAt : Bytes → Nat → α → Prop) : Prop :=
  ∀ (image : Bytes) (place : Nat), place + size ≤ image.length →
    liesAt image place (read ((image.drop place).take size))

section one
variable {place size offset : Nat}

theorem length_record (inside : place + size ≤ image.length) :
    ((image.drop place).take size).length = size := by
  rw [List.length_take, List.length_drop]
  omega

theorem uint16_record (inside : place + size ≤ image.length) (h : offset + 2 ≤ size) :
    (toUInt16 ((image.drop place).take size) offset).toNat = numberAt image (place + offset) 2 := by
  rw [toNat_toUInt16 (by rwa [length_record inside]), numberAt_record h]

theorem uint32_record (inside : place + size ≤ image.length) (h : offset + 4 ≤ size) :
    (toUInt32 ((image.drop place).take size) offset).toNat = numberAt image (place + offset) 4 := by
  rw [toNat_toUInt32 (by rwa [length_record inside]), numberAt_record h]

theorem int32_record (inside : place + size ≤ image.length) (h : offset + 4 ≤ size) :
    (toUInt32 ((image.drop place).take size) offset).toInt32.toInt =
      signedAt image (place + offset) := by
  rw [toInt_toUInt32 (by rwa [length_record inside]), signedAt, signedAt, numberAt_record h]

end one

theorem decodes_byte :
    Decodes 1 (·.headD 0) fun image place (b : UInt8) => b.toNat = numberAt image place 1 := by
  intro image place inside
  have read := toNat_headD ((image.drop place).take 1) 0
    (Nat.le_of_eq (length_record inside).symm)
  rw [numberAt_record (Nat.le_refl 1), List.drop_zero] at read
  exact read

theorem decodes_word :
    Decodes 4 (toUInt32 · 0) fun image place (w : UInt32) => w.toNat = numberAt image place 4 := by
  intro image place inside
  exact uint32_record inside (by omega)

section rows
variable {α : Type} {size : Nat} {read : Bytes → α}

@[simp] theorem length_many (count : Nat) (bytes : Bytes) :
    (many size read count bytes).length = count := by
  induction count generalizing bytes with
  | zero => rfl
  | succ count ih => rw [many, List.length_cons, ih]

theorem getElem_many {count : Nat} {bytes : Bytes} {k : Nat}
    (h : k < (many size read count bytes).length) :
    (many size read count bytes)[k] = read ((bytes.drop (k * size)).take size) := by
  induction count generalizing bytes k with
  | zero => cases h
  | succ count ih =>
    cases k with
    | zero => simp only [many, List.getElem_cons_zero, Nat.zero_mul, List.drop_zero]
    | succ k =>
      simp only [many, List.getElem_cons_succ]
      rw [ih, List.drop_drop, Nat.succ_mul, Nat.add_comm]

end rows
end Record

open Record (Decodes)

theorem Statement.decodes : Decodes Statement.size Statement.read Statement.LiesAt := by
  intro image place inside
  exact ⟨Record.uint16_record inside (by decide), Record.uint16_record inside (by decide),
    Record.uint16_record inside (by decide), Record.uint16_record inside (by decide)⟩

theorem Def.decodes : Decodes Def.size Def.read Def.LiesAt := by
  intro image place inside
  exact ⟨Record.uint16_record inside (by decide), Record.uint16_record inside (by decide),
    Record.int32_record inside (by decide)⟩

theorem FunctionRecord.decodes :
    Decodes FunctionRecord.size FunctionRecord.read FunctionRecord.LiesAt := by
  intro image place inside
  refine ⟨Record.int32_record inside (by decide), Record.uint32_record inside (by decide),
    Record.uint32_record inside (by decide), Record.uint32_record inside (by decide),
    Record.int32_record inside (by decide), Record.int32_record inside (by decide),
    Record.int32_record inside (by decide), ?_⟩
  intro i
  have byte : (read ((image.drop place).take size)).sizes[i] =
      (((image.drop place).take size).drop (28 + i)).headD 0 := by
    rw [← List.drop_drop, ← Record.getD_eq_headD]
    exact Vector.getElem_ofFn i.isLt
  have last : 28 + i.val + 1 ≤ size := by
    have bound := i.isLt
    rw [size]
    omega
  rw [byte, Record.toNat_headD _ _ (by rwa [Record.length_record inside]),
    Record.numberAt_record last, Nat.add_assoc]

/-- The place in the header of where a section starts; that of the number of records is the next. -/
def SectionName.place : SectionName → Nat
  | statements => 2 | globalDefs => 4 | fieldDefs => 6 | functions => 8 | strings => 10
  | globals => 12

def SectionName.recordSize : SectionName → Nat
  | statements => 8 | functions => 36 | globalDefs => 8 | fieldDefs => 8 | strings => 1
  | globals => 4

namespace Image

/-- Where a section starts in an image. -/
def sectionStart (image : Bytes) (name : SectionName) : Nat := headerWord image name.place

def sectionCount (image : Bytes) (name : SectionName) : Nat := headerWord image (name.place + 1)

/-- A table has as many records as its section declares, all inside the image, and each is what the
image has at its place. -/
structure Table {α : Type} (image : Bytes) (name : SectionName)
    (liesAt : Bytes → Nat → α → Prop) (table : Array α) : Prop where
  count : table.size = sectionCount image name
  inside : sectionStart image name + table.size * name.recordSize ≤ image.length
  record : ∀ (k : Nat) (h : k < table.size),
    liesAt image (sectionStart image name + k * name.recordSize) table[k]

/-- A module has the header and the tables that an image writes. -/
structure Decoded (image : Bytes) (m : Module) : Prop where
  header : m.header.toList.map (·.toNat) = (List.range 15).map (headerWord image)
  statements : Table image .statements Statement.LiesAt m.statements
  functions : Table image .functions FunctionRecord.LiesAt m.functions
  globalDefs : Table image .globalDefs Def.LiesAt m.globalDefs
  fieldDefs : Table image .fieldDefs Def.LiesAt m.fieldDefs
  strings : Table image .strings (fun image place b => b.toNat = numberAt image place 1) m.strings
  globals : Table image .globals (fun image place w => w.toNat = numberAt image place 4) m.globals

/-- Something an image has to fulfil, and the error of one that does not. -/
structure Requirement where
  met : Prop
  error : LoadError

namespace Requirement
variable (image : Bytes)

/-- There is a whole header. -/
def wholeHeader : Requirement := ⟨60 ≤ image.length, .shortHeader image.length⟩

/-- The version is one of the two that are read. -/
def knownVersion : Requirement where
  met := headerWord image 0 = 6 ∨ headerWord image 0 = 0x00fff005
  error := .version (UInt32.ofNat (headerWord image 0))

/-- All records of a section are inside the image. -/
def inside (name : SectionName) : Requirement where
  met := sectionStart image name + sectionCount image name * name.recordSize ≤ image.length
  error := .truncated name (sectionStart image name) (sectionCount image name * name.recordSize)
    image.length

/-- The type tag of a field def does not have the bit of saved globals. -/
def unsaved (k : Nat) : Requirement where
  met := (numberAt image (sectionStart image .fieldDefs + k * 8) 2).testBit 15 = false
  error := .invalidFieldDef k

/-- The next even number. -/
def even (words : Nat) : Nat := 2 * ((words + 1) / 2)

/-- Globals, entity records and heap have addresses below 2^31. -/
def room (capacity heapBytes : Nat) : Requirement where
  met := even (sectionCount image .globals) + even (headerWord image 14) * capacity +
    even ((heapBytes + 3) / 4) ≤ 0x7fffffff
  error := .layoutOverflow

end Requirement

open Requirement in
/-- What an image has to fulfil for a number of entity records and bytes of heap, in the order in
which it is looked at. -/
def requirements (image : Bytes) (capacity heapBytes : Nat) : List Requirement :=
  [wholeHeader image, knownVersion image, inside image .statements, inside image .functions,
    inside image .globalDefs, inside image .fieldDefs] ++
  (List.range (sectionCount image .fieldDefs)).map (unsaved image) ++
  [inside image .strings, inside image .globals, room image capacity heapBytes]

/-- The error of the first requirement that is not met. -/
def FirstUnmet (reqs : List Requirement) (e : LoadError) : Prop :=
  ∃ before r after, reqs = before ++ r :: after ∧ (∀ q ∈ before, q.met) ∧ ¬ r.met ∧ r.error = e

section checks
variable {α β : Type} {reqs more : List Requirement} {e : LoadError}

theorem FirstUnmet.append_right (h : FirstUnmet reqs e) (more : List Requirement) :
    FirstUnmet (reqs ++ more) e := by
  obtain ⟨before, r, after, rfl, met, unmet, error⟩ := h
  exact ⟨before, r, after ++ more, by simp, met, unmet, error⟩

theorem FirstUnmet.append_left (h : FirstUnmet more e) (met : ∀ r ∈ reqs, r.met) :
    FirstUnmet (reqs ++ more) e := by
  obtain ⟨before, r, after, rfl, others, unmet, error⟩ := h
  refine ⟨reqs ++ before, r, after, by simp, ?_, unmet, error⟩
  intro q hq
  exact (List.mem_append.mp hq).elim (met q) (others q)

theorem FirstUnmet.not_met (h : FirstUnmet reqs e) : ¬ ∀ r ∈ reqs, r.met := by
  obtain ⟨before, r, after, rfl, -, unmet, -⟩ := h
  intro met
  exact unmet (met r (by simp))

theorem firstUnmet_cons {r : Requirement} :
    FirstUnmet (r :: more) e ↔ ¬ r.met ∧ r.error = e ∨ r.met ∧ FirstUnmet more e := by
  constructor
  · rintro ⟨before, q, after, same, met, unmet, error⟩
    cases before with
    | nil =>
      obtain ⟨rfl, -⟩ := List.cons.inj same
      exact .inl ⟨unmet, error⟩
    | cons first before =>
      obtain ⟨rfl, rest⟩ := List.cons.inj same
      exact .inr ⟨met r (by simp), before, q, after, rest, fun p hp => met p (by simp [hp]), unmet,
        error⟩
  · rintro (⟨unmet, error⟩ | ⟨met, first⟩)
    · exact ⟨[], r, more, rfl, nofun, unmet, error⟩
    · have met' : ∀ q ∈ [r], q.met := List.forall_mem_singleton.mpr met
      exact first.append_left met'

theorem FirstUnmet.unique {e' : LoadError} (h : FirstUnmet reqs e) (h' : FirstUnmet reqs e') :
    e = e' := by
  induction reqs with
  | nil =>
    obtain ⟨before, r, after, same, -⟩ := h
    simp at same
  | cons r more ih =>
    rcases firstUnmet_cons.mp h with ⟨unmet, error⟩ | ⟨met, rest⟩ <;>
      rcases firstUnmet_cons.mp h' with ⟨unmet', error'⟩ | ⟨met', rest'⟩
    · exact error.symm.trans error'
    · exact absurd met' unmet
    · exact absurd met unmet'
    · exact ih rest rest'

/-- A reader looks at requirements in their order. It has a result, with a property, when all are
met, and otherwise the error of the first that is not. -/
def Checks (reqs : List Requirement) (P : α → Prop) : Except LoadError α → Prop
  | .ok x => (∀ r ∈ reqs, r.met) ∧ P x
  | .error e => FirstUnmet reqs e

theorem Checks.after {x : Except LoadError α} {P : α → Prop} (met : ∀ r ∈ reqs, r.met)
    (rest : Checks more P x) : Checks (reqs ++ more) P x := by
  cases x with
  | error e => exact FirstUnmet.append_left rest met
  | ok a =>
    refine ⟨?_, rest.2⟩
    intro r hr
    exact (List.mem_append.mp hr).elim (met r) (rest.1 r)

theorem Checks.bind {x : Except LoadError α} {f : α → Except LoadError β} {P : α → Prop}
    {Q : β → Prop} (first : Checks reqs P x) (next : ∀ a, P a → Checks more Q (f a)) :
    Checks (reqs ++ more) Q (x >>= f) := by
  cases x with
  | error e => exact FirstUnmet.append_right first more
  | ok a => exact Checks.after first.1 (next a first.2)

theorem Checks.ok_iff {x : Except LoadError α} {P : α → Prop} (h : Checks reqs P x) :
    (∃ a, x = .ok a) ↔ ∀ r ∈ reqs, r.met := by
  cases x with
  | ok a => exact iff_of_true ⟨a, rfl⟩ h.1
  | error e => exact iff_of_false nofun (FirstUnmet.not_met h)

theorem Checks.error_iff {x : Except LoadError α} {P : α → Prop} (h : Checks reqs P x) :
    x = .error e ↔ FirstUnmet reqs e := by
  cases x with
  | ok a => exact iff_of_false nofun fun first => first.not_met h.1
  | error e' =>
    rw [Except.error.injEq]
    constructor
    · rintro rfl
      exact h
    · exact FirstUnmet.unique h

theorem Checks.test {r : Requirement} {bad : Prop} [Decidable bad] {x : Except LoadError α}
    {P : α → Prop} (h : bad ↔ ¬ r.met) (rest : r.met → Checks more P x) :
    Checks (r :: more) P (if bad then .error r.error else x) := by
  by_cases hb : bad
  · rw [if_pos hb]
    exact ⟨[], r, more, rfl, nofun, h.mp hb, rfl⟩
  · rw [if_neg hb]
    have met : r.met := Classical.byContradiction fun unmet => hb (h.mpr unmet)
    have met' : ∀ q ∈ [r], q.met := List.forall_mem_singleton.mpr met
    exact Checks.after met' (rest met)

end checks

theorem littleEndian_lt (bytes : Bytes) : littleEndian bytes < Nat.pow 0x100 bytes.length := by
  induction bytes with
  | nil => decide
  | cons b rest ih =>
    have first := b.toNat_lt
    have more : Nat.pow 0x100 (rest.length + 1) = Nat.pow 0x100 rest.length * 0x100 := rfl
    rw [littleEndian, List.length_cons, more]
    omega

theorem headerWord_lt (image : Bytes) (place : Nat) : headerWord image place < 0x100000000 := by
  have few : ((image.drop (4 * place)).take 4).length ≤ 4 := List.length_take_le ..
  exact Nat.lt_of_lt_of_le (littleEndian_lt _) (Nat.pow_le_pow_right (by decide) few)

section sections
variable {image : Bytes}

theorem toNat_word (whole : Header.size ≤ image.length) {i : Nat} (hi : i < 15) :
    (Record.toUInt32 image (4 * i)).toNat = headerWord image i := by
  apply Record.toNat_toUInt32
  rw [Header.size] at whole
  omega

theorem parse_checks (image : Bytes) : Checks [Requirement.wholeHeader image]
    (fun h => h = Header.read image ∧ Header.size ≤ image.length) (Header.parse image) := by
  rw [Header.parse]
  have short : image.length < Header.size ↔ ¬ (Requirement.wholeHeader image).met := Nat.not_le.symm
  exact Checks.test short fun whole => ⟨List.forall_mem_nil _, rfl, whole⟩

theorem read_numbers (whole : Header.size ≤ image.length) :
    (Header.read image).toList.map (·.toNat) = (List.range 15).map (headerWord image) := by
  have words : (Header.read image).toList =
      (List.range 15).map fun i => Record.toUInt32 image (4 * i) := rfl
  rw [words, List.map_map]
  apply List.map_congr_left
  intro i hi
  exact toNat_word whole (List.mem_range.mp hi)

/-- A section is read if it is inside the image, and its records are then those at their places. -/
theorem readSection_checks {α : Type} (name : SectionName) {s : Section} {read : Bytes → α}
    {liesAt : Bytes → Nat → α → Prop} (decodes : Record.Decodes name.recordSize read liesAt)
    (start : s.offset.toNat = sectionStart image name)
    (count : s.count.toNat = sectionCount image name) :
    Checks [Requirement.inside image name] (fun xs => Table image name liesAt xs.toArray)
      (readSection image name s name.recordSize read) := by
  simp only [readSection, sectionBytes, start, count]
  by_cases inside :
      sectionStart image name + sectionCount image name * name.recordSize ≤ image.length
  · rw [if_pos inside]
    refine ⟨?_, ?_, ?_, ?_⟩
    · intro r hr
      rw [List.mem_singleton.mp hr]
      exact inside
    · simp
    · simpa using inside
    · intro k hk
      have below : k < sectionCount image name := by simpa using hk
      have fits : sectionStart image name + k * name.recordSize + name.recordSize ≤
          image.length := by
        have upTo := Nat.mul_le_mul_right name.recordSize below
        rw [Nat.succ_mul] at upTo
        omega
      rw [List.getElem_toArray, Record.getElem_many, List.drop_drop]
      exact decodes image _ fits
  · rw [if_neg inside]
    exact ⟨[], _, [], rfl, nofun, inside, rfl⟩

theorem isSaved_eq (d : Def) : d.isSaved = d.tag.toNat.testBit 15 := by
  have bit : (d.tag &&& ValueType.saveFlag).toNat = (d.tag.toNat.testBit 15).toNat * 0x8000 := by
    rw [UInt16.toNat_and]
    exact Nat.and_two_pow d.tag.toNat 15
  have zero : d.tag &&& ValueType.saveFlag = 0 ↔ d.tag.toNat.testBit 15 = false := by
    rw [← UInt16.toNat_inj, bit]
    cases d.tag.toNat.testBit 15 <;> decide
  rw [Def.isSaved, Bool.eq_iff_iff, bne_iff_ne, ne_eq, zero, Bool.not_eq_false]

theorem isSaved_iff {defs : List Def} (table : Table image .fieldDefs Def.LiesAt defs.toArray)
    {k : Nat} (hk : k < defs.length) :
    defs[k].isSaved = false ↔ (Requirement.unsaved image k).met := by
  have tag := (table.record k hk).tag
  rw [List.getElem_toArray] at tag
  rw [isSaved_eq, tag]
  rfl

/-- The field defs are looked at one after another for the bit of saved globals. -/
theorem unsaved_checks {defs : List Def} (table : Table image .fieldDefs Def.LiesAt defs.toArray) :
    Checks ((List.range (sectionCount image .fieldDefs)).map (Requirement.unsaved image))
      (fun _ => True)
      (match defs.findIdx? Def.isSaved with
        | some k => .error (.invalidFieldDef k)
        | none => .ok ()) := by
  have count : defs.length = sectionCount image .fieldDefs := table.count
  cases found : defs.findIdx? Def.isSaved with
  | none =>
    refine ⟨?_, trivial⟩
    intro r hr
    obtain ⟨k, hk, rfl⟩ := List.mem_map.mp hr
    have below : k < defs.length := by rwa [count, ← List.mem_range]
    have unset := List.findIdx?_eq_none_iff.mp found _ (List.getElem_mem below)
    exact (isSaved_iff table below).mp unset
  | some k =>
    obtain ⟨hk, saved, first⟩ := List.findIdx?_eq_some_iff_getElem.mp found
    obtain ⟨more, total⟩ := Nat.exists_eq_add_of_le (Nat.succ_le_of_lt hk)
    have range : List.range (sectionCount image .fieldDefs) =
        List.range k ++ k :: (List.range more).map (k + 1 + ·) := by
      rw [← count, total, List.range_add, List.range_succ, List.append_assoc]
      rfl
    rw [range, List.map_append, List.map_cons]
    refine ⟨_, _, _, rfl, ?_, ?_, rfl⟩
    · intro q hq
      obtain ⟨j, hj, rfl⟩ := List.mem_map.mp hq
      have earlier : j < k := List.mem_range.mp hj
      exact (isSaved_iff table (Nat.lt_trans earlier hk)).mp (by simpa using first j earlier)
    · rw [← isSaved_iff table hk, saved]
      decide

/-- Below the bound of 64 bits a count is rounded up to an even number. -/
theorem alignUp_eq {words : Nat} (h : words < 0xffffffffffffffff) :
    Layout.alignUp words = Requirement.even words := by
  rw [Layout.alignUp, Requirement.even]
  omega

theorem alignUp_headerWord (image : Bytes) (place : Nat) :
    Layout.alignUp (headerWord image place) = Requirement.even (headerWord image place) := by
  have small := headerWord_lt image place
  exact alignUp_eq (by omega)

theorem alignUp_heap {heapBytes : Nat} (h : heapBytes < 0x10000000000000000) :
    Layout.alignUp ((heapBytes + 3) / 4) = Requirement.even ((heapBytes + 3) / 4) :=
  alignUp_eq (by omega)

theorem layout_checks (image : Bytes) (capacity : Nat) {heapBytes : Nat}
    (h : heapBytes < 0x10000000000000000) :
    Checks [Requirement.room image capacity heapBytes] (fun _ => True)
      (Layout.make (sectionCount image .globals) (headerWord image 14) capacity heapBytes) := by
  rw [Layout.make]
  simp only [sectionCount, alignUp_headerWord, alignUp_heap h]
  exact Checks.test Nat.not_le.symm fun _ => ⟨nofun, trivial⟩

theorem version_iff (whole : Header.size ≤ image.length) :
    ((Header.read image).version ≠ extendedVersion ∧ (Header.read image).version ≠ basicVersion) ↔
      ¬ (Requirement.knownVersion image).met := by
  have word : (Header.read image).version.toNat = headerWord image 0 := toNat_word whole (by decide)
  simp only [Requirement.knownVersion, ← word, ne_eq, ← UInt32.toNat_inj, not_or]
  exact and_comm

/-- The loader looks at the requirements in their order, and what it loads is what they describe. -/
theorem load_checks (image : Bytes) (capacity : Nat) {heapBytes : Nat}
    (h : heapBytes < 0x10000000000000000) :
    Checks (requirements image capacity heapBytes) (Decoded image)
      (load image capacity heapBytes) := by
  have split : requirements image capacity heapBytes =
      [Requirement.wholeHeader image] ++ Requirement.knownVersion image ::
        ([Requirement.inside image .statements] ++ ([Requirement.inside image .functions] ++
          ([Requirement.inside image .globalDefs] ++ ([Requirement.inside image .fieldDefs] ++
            ((List.range (sectionCount image .fieldDefs)).map (Requirement.unsaved image) ++
              ([Requirement.inside image .strings] ++ ([Requirement.inside image .globals] ++
                ([Requirement.room image capacity heapBytes] ++ [])))))))) := by
    simp [requirements]
  rw [split, load]
  refine (parse_checks image).bind ?_
  rintro _ ⟨rfl, whole⟩
  have word {i : Nat} (hi : i < 15) := toNat_word whole hi
  have error : (Requirement.knownVersion image).error = .version (Header.read image).version :=
    congrArg LoadError.version (by rw [← word (by decide)]; exact UInt32.ofNat_toNat)
  rw [show LoadError.version (Header.read image).version = _ from error.symm]
  refine Checks.test (version_iff whole) fun _ => ?_
  refine (readSection_checks .statements Statement.decodes (word (by decide))
    (word (by decide))).bind ?_
  intro statements hs
  refine (readSection_checks .functions FunctionRecord.decodes (word (by decide))
    (word (by decide))).bind ?_
  intro functions hf
  refine (readSection_checks .globalDefs Def.decodes (word (by decide)) (word (by decide))).bind ?_
  intro globalDefs hg
  refine (readSection_checks .fieldDefs Def.decodes (word (by decide)) (word (by decide))).bind ?_
  intro fieldDefs hd
  have unsaved := unsaved_checks hd
  cases found : fieldDefs.findIdx? Def.isSaved with
  | some k =>
    rw [found] at unsaved
    exact FirstUnmet.append_right unsaved _
  | none =>
    rw [found] at unsaved
    refine Checks.after unsaved.1 ?_
    refine (readSection_checks .strings Record.decodes_byte (word (by decide))
      (word (by decide))).bind ?_
    intro strings ht
    refine (readSection_checks .globals Record.decodes_word (word (by decide))
      (word (by decide))).bind ?_
    intro globals hw
    refine Checks.bind (P := fun _ => True) ?_ fun layout _ => ?_
    · have laid := layout_checks image capacity h
      rw [sectionCount, ← word (by decide), ← word (by decide)] at laid
      exact laid
    · refine ⟨nofun, ?_⟩
      exact ⟨read_numbers whole, hs, hf, hg, hd, ht, hw⟩

end sections

/-- No sum or product that the loader makes of the numbers in an image has a carry out of 64
bits. -/
structure WithinWord (image : Bytes) (heapBytes : Nat) : Prop where
  section_end : ∀ name : SectionName, sectionStart image name +
    sectionCount image name * name.recordSize < 0x10000000000000000
  globals : Layout.alignUp (sectionCount image .globals) =
    Requirement.even (sectionCount image .globals)
  fields : Layout.alignUp (headerWord image 14) = Requirement.even (headerWord image 14)
  heap : Layout.alignUp ((heapBytes + 3) / 4) = Requirement.even ((heapBytes + 3) / 4)

theorem withinWord (image : Bytes) {heapBytes : Nat} (h : heapBytes < 0x10000000000000000) :
    WithinWord image heapBytes := by
  refine ⟨?_, alignUp_headerWord image _, alignUp_headerWord image _, alignUp_heap h⟩
  intro name
  have start : sectionStart image name < 0x100000000 := headerWord_lt image _
  have count : sectionCount image name < 0x100000000 := headerWord_lt image _
  have size : name.recordSize ≤ 36 := by
    cases name <;> decide
  have product : sectionCount image name * name.recordSize ≤ 0x100000000 * 36 :=
    Nat.mul_le_mul (Nat.le_of_lt count) size
  omega

/-- The loader accepts exactly the images of the format. It loads an image if and only if all
requirements are met; the module then has the header and the tables that the image writes; and it
fails with an error if and only if that is the error of the first requirement not met. -/
theorem load_accepts_format (image : Bytes) (capacity heapBytes : UInt64) :
    ((∃ m, load image capacity.toNat heapBytes.toNat = .ok m) ↔
      ∀ r ∈ requirements image capacity.toNat heapBytes.toNat, r.met) ∧
    (∀ m, load image capacity.toNat heapBytes.toNat = .ok m → Decoded image m) ∧
    (∀ e, load image capacity.toNat heapBytes.toNat = .error e ↔
      FirstUnmet (requirements image capacity.toNat heapBytes.toNat) e) ∧
    WithinWord image heapBytes.toNat := by
  have checks := load_checks image capacity.toNat heapBytes.toNat_lt
  refine ⟨checks.ok_iff, ?_, fun e => checks.error_iff, withinWord image heapBytes.toNat_lt⟩
  intro m loaded
  rw [loaded] at checks
  exact checks.2

end Image
end GameBytecode
