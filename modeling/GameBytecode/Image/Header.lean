import GameBytecode.Fault
import GameBytecode.Record

/-!
The header of a module image: fifteen numbers of 32 bits.
-/
namespace GameBytecode
open Text (Bytes)

/-- Where a section starts, in bytes, and how many records it holds. -/
structure Section where
  offset : UInt32
  count : UInt32
deriving DecidableEq, Repr, Inhabited

structure Header where
  version : UInt32
  checksum : UInt32
  statements : Section
  globalDefs : Section
  fieldDefs : Section
  functions : Section
  strings : Section
  globals : Section
  /-- Words of an entity record. -/
  entityFields : UInt32
deriving DecidableEq, Repr, Inhabited

namespace Header

def size : Nat := 60

/-- The numbers of the header in the order of the image. -/
def toList (h : Header) : List UInt32 :=
  [h.version, h.checksum, h.statements.offset, h.statements.count, h.globalDefs.offset,
    h.globalDefs.count, h.fieldDefs.offset, h.fieldDefs.count, h.functions.offset,
    h.functions.count, h.strings.offset, h.strings.count, h.globals.offset, h.globals.count,
    h.entityFields]

/-- The names of the numbers, in the same order. -/
def names : List String :=
  ["version", "crc", "ofs_statements", "num_statements", "ofs_globaldefs", "num_globaldefs",
    "ofs_fielddefs", "num_fielddefs", "ofs_functions", "num_functions", "ofs_strings",
    "num_strings", "ofs_globals", "num_globals", "entity_fields"]

def bytes (h : Header) : Bytes := h.toList.flatMap Record.ofUInt32

def read (b : Bytes) : Header :=
  let word (i : Nat) := Record.toUInt32 b (4 * i)
  { version := word 0
    checksum := word 1
    statements := ⟨word 2, word 3⟩
    globalDefs := ⟨word 4, word 5⟩
    fieldDefs := ⟨word 6, word 7⟩
    functions := ⟨word 8, word 9⟩
    strings := ⟨word 10, word 11⟩
    globals := ⟨word 12, word 13⟩
    entityFields := word 14 }

/-- The header at the front of an image. -/
def parse (b : Bytes) : Except LoadError Header :=
  if b.length < size then .error (.shortHeader b.length) else .ok (read b)

end Header
end GameBytecode
