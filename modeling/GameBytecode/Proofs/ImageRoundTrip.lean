import GameBytecode.Image
import GameBytecode.Proofs.BuilderHistory
import GameBytecode.Proofs.RecordBytes

/-!
An image that a builder writes is loaded with all that was put into the builder. The sections are
written one after another, each as a row of records, and read from the offsets in the header.
-/
namespace GameBytecode
open Text (Bytes)
open Record (Readable)

/-- The section starts at an offset and holds a number of records. -/
def Section.Holds (s : Section) (offset count : Nat) : Prop :=
  s.offset.toNat = offset ∧ s.count.toNat = count

/-- What follows the records of a section starts after them. -/
theorem Section.Holds.next {s : Section} {offset count length : Nat} {before part : Bytes}
    (holds : s.Holds offset count) (start : before.length = offset) (h : part.length = length) :
    (before ++ part).length = s.offset.toNat + length := by
  rw [List.length_append, start, h, holds.1]

namespace Image
variable {image before after : Bytes} {s : Section}

theorem sectionBytes_ok (name : SectionName) {recordSize : Nat}
    (inside : s.offset.toNat + s.count.toNat * recordSize ≤ image.length) :
    sectionBytes image name s recordSize = .ok (image.drop s.offset.toNat) := by
  simp only [sectionBytes, if_pos inside]

theorem readSection_row {α : Type} {size : Nat} {write : α → Bytes} {read : Bytes → α}
    (h : Readable size write read) (name : SectionName) {offset : Nat} {xs : Array α}
    (holds : s.Holds offset xs.size) (start : before.length = offset)
    (parts : image = before ++ (xs.toList.flatMap write ++ after)) :
    readSection image name s size read = .ok xs.toList := by
  obtain ⟨rfl, count⟩ := holds
  have inside : s.offset.toNat + s.count.toNat * size ≤ image.length := by
    rw [← start, count, parts, List.length_append, List.length_append, h.length_flatMap,
      Array.length_toList]
    exact Nat.add_le_add_left (Nat.le_add_right ..) _
  rw [readSection, sectionBytes_ok name inside, ← start, count, parts, List.drop_left,
    ← Array.length_toList]
  exact congrArg Except.ok (h.many_flatMap xs.toList after)

end Image

namespace Builder
variable (b : Builder)

/-- The six sections follow the header one after another, up to the end of the image. -/
structure BackToBack : Prop where
  statements : b.header.statements.Holds Header.size b.statements.size
  globalDefs : b.header.globalDefs.Holds
    (b.header.statements.offset.toNat + b.statements.size * Statement.size) b.globalDefs.size
  fieldDefs : b.header.fieldDefs.Holds
    (b.header.globalDefs.offset.toNat + b.globalDefs.size * Def.size) b.fieldDefs.size
  functions : b.header.functions.Holds
    (b.header.fieldDefs.offset.toNat + b.fieldDefs.size * Def.size) b.functions.size
  strings : b.header.strings.Holds
    (b.header.functions.offset.toNat + b.functions.size * FunctionRecord.size) b.strings.size
  globals : b.header.globals.Holds (b.header.strings.offset.toNat + b.strings.size) b.globals.size
  ends : b.bytes.length = b.header.globals.offset.toNat + b.globals.size * 4

/-- A module has the contents of the builder. -/
structure Reproduced (m : Module) : Prop where
  statements : m.statements = b.statements
  functions : m.functions = b.functions
  globalDefs : m.globalDefs = b.globalDefs
  fieldDefs : m.fieldDefs = b.fieldDefs
  strings : m.strings = b.strings
  globals : m.globals = b.globals
  entityFields : m.header.entityFields = b.entityFields

/-- Each section of the image is read as the builder has it. -/
structure ReadBack : Prop where
  statements : Image.readSection b.bytes .statements b.header.statements Statement.size
    Statement.read = .ok b.statements.toList
  globalDefs : Image.readSection b.bytes .globalDefs b.header.globalDefs Def.size Def.read =
    .ok b.globalDefs.toList
  fieldDefs : Image.readSection b.bytes .fieldDefs b.header.fieldDefs Def.size Def.read =
    .ok b.fieldDefs.toList
  functions : Image.readSection b.bytes .functions b.header.functions FunctionRecord.size
    FunctionRecord.read = .ok b.functions.toList
  strings : Image.readSection b.bytes .strings b.header.strings 1 (·.headD 0) =
    .ok b.strings.toList
  globals : Image.readSection b.bytes .globals b.header.globals 4 (Record.toUInt32 · 0) =
    .ok b.globals.toList

theorem length_statements :
    (b.statements.toList.flatMap Statement.bytes).length = b.statements.size * Statement.size :=
  Statement.readable.length_flatMap b.statements.toList

theorem length_defs (defs : Array Def) :
    (defs.toList.flatMap Def.bytes).length = defs.size * Def.size :=
  Def.readable.length_flatMap defs.toList

theorem length_functions :
    (b.functions.toList.flatMap FunctionRecord.bytes).length =
      b.functions.size * FunctionRecord.size :=
  FunctionRecord.readable.length_flatMap b.functions.toList

theorem length_globals :
    (b.globals.toList.flatMap Record.ofUInt32).length = b.globals.size * 4 :=
  Record.readable_word.length_flatMap b.globals.toList

theorem length_bytes :
    b.bytes.length = Header.size + b.statements.size * Statement.size +
      b.globalDefs.size * Def.size + b.fieldDefs.size * Def.size +
      b.functions.size * FunctionRecord.size + b.strings.size + b.globals.size * 4 := by
  simp only [bytes, body, List.length_append, Header.length_bytes, length_statements, length_defs,
    length_functions, length_globals, Array.length_toList]
  omega

variable {b}

/-- In an image of fewer than 2^31 bytes no offset is cut off. -/
theorem backToBack (small : b.bytes.length < 0x80000000) : b.BackToBack := by
  have length := b.length_bytes
  have exact_of {n : Nat} (h : n < 2 ^ 32) : (UInt32.ofNat n).toNat = n := UInt32.toNat_ofNat_of_lt h
  simp only [Header.size, Statement.size, Def.size, FunctionRecord.size] at length
  constructor <;>
    simp only [header, Section.Holds, Header.size, Statement.size, Def.size, FunctionRecord.size]
  case ends =>
    rw [exact_of (by omega)]
    omega
  all_goals
    repeat rw [exact_of (by omega)]
    exact ⟨rfl, rfl⟩

theorem readBack (small : b.bytes.length < 0x80000000) : b.ReadBack := by
  have placed := backToBack small
  have single (xs : List UInt8) : xs.flatMap (fun x => [x]) = xs := by simp
  have parts : b.bytes = b.header.bytes ++ (b.statements.toList.flatMap Statement.bytes ++
      (b.globalDefs.toList.flatMap Def.bytes ++ (b.fieldDefs.toList.flatMap Def.bytes ++
      (b.functions.toList.flatMap FunctionRecord.bytes ++
      (b.strings.toList.flatMap (fun x => [x]) ++
      (b.globals.toList.flatMap Record.ofUInt32 ++ [])))))) := by
    simp only [bytes, body, single, List.append_assoc, List.append_nil]
  have start := b.header.length_bytes
  -- Each section is read in turn, and then counted to what stands before the next one.
  have statements :=
    Image.readSection_row Statement.readable .statements placed.statements start parts
  replace start := placed.statements.next start b.length_statements
  replace parts := parts.trans (List.append_assoc ..).symm
  have globalDefs := Image.readSection_row Def.readable .globalDefs placed.globalDefs start parts
  replace start := placed.globalDefs.next start (length_defs b.globalDefs)
  replace parts := parts.trans (List.append_assoc ..).symm
  have fieldDefs := Image.readSection_row Def.readable .fieldDefs placed.fieldDefs start parts
  replace start := placed.fieldDefs.next start (length_defs b.fieldDefs)
  replace parts := parts.trans (List.append_assoc ..).symm
  have functions :=
    Image.readSection_row FunctionRecord.readable .functions placed.functions start parts
  replace start := placed.functions.next start b.length_functions
  replace parts := parts.trans (List.append_assoc ..).symm
  have strings := Image.readSection_row Record.readable_byte .strings placed.strings start parts
  replace start := placed.strings.next start (congrArg List.length (single b.strings.toList))
  replace parts := parts.trans (List.append_assoc ..).symm
  have globals := Image.readSection_row Record.readable_word .globals placed.globals start parts
  exact ⟨statements, globalDefs, fieldDefs, functions, strings, globals⟩

/-- The image of a builder of an accepted version is loaded wherever its words have room. -/
theorem load_bytes {capacity heapBytes : Nat} {layout : Layout}
    (version : b.version = extendedVersion ∨ b.version = basicVersion)
    (unsaved : ∀ d ∈ b.fieldDefs, d.isSaved = false) (small : b.bytes.length < 0x80000000)
    (room : Layout.make b.globals.size b.entityFields.toNat capacity heapBytes = .ok layout) :
    ∃ m, Image.load b.bytes capacity heapBytes = .ok m ∧ b.Reproduced m ∧ m.header = b.header ∧
      m.layout = layout := by
  have read := readBack small
  have accepted : ¬ (b.header.version ≠ extendedVersion ∧ b.header.version ≠ basicVersion) := by
    rintro ⟨notExtended, notBasic⟩
    exact version.elim notExtended notBasic
  have none_saved : b.fieldDefs.toList.findIdx? Def.isSaved = none := by
    simpa using unsaved
  have laid : Layout.make b.header.globals.count.toNat b.header.entityFields.toNat capacity
      heapBytes = .ok layout := by
    rw [(backToBack small).globals.2]
    exact room
  simp only [Image.load, show Header.parse b.bytes = .ok b.header from b.header.parse_append b.body,
    bind, Except.bind, if_neg accepted, read.statements, read.functions, read.globalDefs,
    read.fieldDefs, none_saved, read.strings, read.globals, laid, pure, Except.pure]
  refine ⟨_, rfl, ⟨?_, ?_, ?_, ?_, ?_, ?_, ?_⟩, ?_, ?_⟩ <;> simp only [Module.bind]
  all_goals rfl

theorem header_checksum (b : Builder) :
    b.header.checksum = (Checksum.crc16 (b.bytes.drop Header.size)).toUInt32 := by
  rw [bytes, ← b.header.length_bytes, List.drop_left]
  rfl

/-- Writing and loading undo each other. Whatever calls have made a builder, its image is loaded with
the same contents; the header tells where the sections are and has the checksum of what follows it;
and headers and sixty bytes are each the other's reading. -/
theorem image_round_trip :
    (∀ (ops : List Operation) (capacity heapBytes : Nat) (layout : Layout),
      (built ops).version = extendedVersion ∨ (built ops).version = basicVersion →
      (built ops).bytes.length < 0x80000000 →
      Layout.make (built ops).globals.size (built ops).entityFields.toNat capacity heapBytes =
        .ok layout →
      (∃ m, Image.load (built ops).bytes capacity heapBytes = .ok m ∧ (built ops).Reproduced m ∧
        m.header = (built ops).header ∧ m.layout = layout) ∧
      (built ops).BackToBack ∧
      (built ops).header.checksum =
        (Checksum.crc16 ((built ops).bytes.drop Header.size)).toUInt32) ∧
    (∀ h : Header, Header.parse h.bytes = .ok h) ∧
    ∀ image : Bytes, image.length = Header.size →
      ∃ h, Header.parse image = .ok h ∧ h.bytes = image := by
  refine ⟨?_, ?_, ?_⟩
  · intro ops capacity heapBytes layout version small room
    have loaded := load_bytes version (fieldDefs_unsaved ops) small room
    exact ⟨loaded, backToBack small, (built ops).header_checksum⟩
  · intro h
    have parsed := h.parse_append []
    rwa [List.append_nil] at parsed
  · intro image length
    have long : ¬ image.length < Header.size := Nat.not_lt_of_le (Nat.le_of_eq length.symm)
    refine ⟨Header.read image, ?_, Header.bytes_read length⟩
    rw [Header.parse, if_neg long]

/-- A builder of the earlier version, with a global, a field, a builtin and a function. -/
def smallModule : List Operation :=
  [.setVersion basicVersion, .addGlobal "origin" (.vector ⟨1, 2, 3⟩), .addField "health" .float,
    .addBuiltin "print" 1, .addFunction "main" "main.src" 1 28 [3] 3,
    .pushStatements [⟨0, 28, 0, 0⟩]]

/-- The image of that builder is loaded as it was written, and so are sixty bytes of ones. -/
theorem smallModule_round_trip :
    (∃ m, Image.load (built smallModule).bytes 2 8 = .ok m ∧ (built smallModule).Reproduced m) ∧
      ∃ h, Header.parse (List.replicate 60 0xff) = .ok h ∧ h.bytes = List.replicate 60 0xff := by
  have version : (built smallModule).version = basicVersion := by decide +kernel
  have small : (built smallModule).bytes.length < 0x80000000 := by decide +kernel
  have globals : (built smallModule).globals.size = 31 := by decide +kernel
  have fields : (built smallModule).entityFields = 1 := by decide +kernel
  have room : Layout.make (built smallModule).globals.size (built smallModule).entityFields.toNat 2
      8 = .ok ⟨31, 32, 2, 2, 1, 36, 2, 38⟩ := by
    rw [globals, fields]
    rfl
  obtain ⟨⟨m, loaded, same, -⟩, -⟩ := image_round_trip.1 smallModule 2 8 _ (.inr version) small room
  exact ⟨⟨m, loaded, same⟩, image_round_trip.2.2 _ List.length_replicate⟩

end Builder
end GameBytecode
