import GameBytecode.Checksum
import GameBytecode.Module
import GameBytecode.Opcode

/-!
Reading a module image. The header gives the offset and the number of records of six sections; each
has to lie inside the image, in any place.
-/
namespace GameBytecode.Image
open Text (Bytes)

/-- The bytes from the start of a section, if all its records are inside the image. -/
def sectionBytes (image : Bytes) (name : SectionName) (s : Section) (recordSize : Nat) :
    Except LoadError Bytes :=
  let offset := s.offset.toNat
  let needed := s.count.toNat * recordSize
  if offset + needed ≤ image.length then .ok (image.drop offset)
  else .error (.truncated name offset needed image.length)

def readSection {α : Type} (image : Bytes) (name : SectionName) (s : Section) (recordSize : Nat)
    (read : Bytes → α) : Except LoadError (List α) :=
  (sectionBytes image name s recordSize).map (Record.many recordSize read s.count.toNat)

/-- Loads an image for a number of entity records and bytes of heap. -/
def load (image : Bytes) (capacity heapBytes : Nat) : Except LoadError Module := do
  let header ← Header.parse image
  if header.version ≠ extendedVersion ∧ header.version ≠ basicVersion then
    throw (.version header.version)
  let statements ← readSection image .statements header.statements Statement.size Statement.read
  let functions ←
    readSection image .functions header.functions FunctionRecord.size FunctionRecord.read
  let globalDefs ← readSection image .globalDefs header.globalDefs Def.size Def.read
  let fieldDefs ← readSection image .fieldDefs header.fieldDefs Def.size Def.read
  if let some index := fieldDefs.findIdx? Def.isSaved then
    throw (.invalidFieldDef index)
  let strings ← readSection image .strings header.strings 1 (·.headD 0)
  let globals ← readSection image .globals header.globals 4 (Record.toUInt32 · 0)
  let layout ← Layout.make header.globals.count.toNat header.entityFields.toNat capacity heapBytes
  let m : Module :=
    { header
      checksum := Checksum.crc16 image
      size := image.length
      statements := statements.toArray
      functions := functions.toArray
      globalDefs := globalDefs.toArray
      fieldDefs := fieldDefs.toArray
      strings := strings.toArray
      globals := globals.toArray
      layout
      bindings := default
      lookups := .build strings.toArray functions.toArray globalDefs.toArray fieldDefs.toArray
      lookups_eq := rfl }
  return m.bind

end GameBytecode.Image
