import GameBytecode.Checksum
import GameBytecode.Image.Header
import GameBytecode.Memory
import GameBytecode.Memory.Layout
import GameBytecode.Opcode
import GameBytecode.StringArena
import GameBytecode.Value

/-!
Building a module image. A new builder holds what every module starts with: the empty string, the
null statement, function and defs, and the globals of the return value and the arguments.
-/
namespace GameBytecode
open Text (Bytes)

structure Builder where
  version : UInt32
  strings : Array UInt8
  /-- Offsets of the strings added so far. -/
  interned : List (String × StringRef)
  statements : Array Statement
  functions : Array FunctionRecord
  globalDefs : Array Def
  fieldDefs : Array Def
  globals : Array Word
  /-- Addresses of the named globals, the first of a name before others. -/
  names : List (String × UInt16)
  entityFields : UInt32

namespace Builder

def empty : Builder where
  version := extendedVersion
  strings := #[0]
  interned := [("", 0)]
  statements := #[.null]
  functions := #[.null]
  globalDefs := #[.null]
  fieldDefs := #[.null]
  globals := Array.replicate Address.reserved 0
  names := []
  entityFields := 0

def setVersion (b : Builder) (version : UInt32) : Builder := { b with version }

/-- The offset of a string, added unless it is there. -/
def addString (b : Builder) (text : String) : StringRef × Builder :=
  match b.interned.lookup text with
  | some offset => (offset, b)
  | none =>
    let offset := Int32.ofNat b.strings.size
    (offset, { b with
      strings := b.strings ++ (Text.utf8 text ++ [0]).toArray
      interned := (text, offset) :: b.interned })

/-- Adds zeros until there are at least count globals. -/
def reserveGlobals (b : Builder) (count : Nat) : Builder :=
  { b with globals := b.globals ++ Array.replicate (count - b.globals.size) 0 }

/-- Adds count zeros; the answer is the address of the first. -/
def reserveWords (b : Builder) (count : Nat) : UInt16 × Builder :=
  (UInt16.ofNat b.globals.size, { b with globals := b.globals ++ Array.replicate count 0 })

/-- Names the global at an address. -/
def addDef (b : Builder) (name : String) (type : ValueType) (offset : UInt16) : Builder :=
  let (ref, b) := b.addString name
  { b with
    globalDefs := b.globalDefs.push ⟨type.tag, offset, ref⟩
    names := b.names ++ [(name, offset)] }

/-- Adds a named global with a value; the answer is its address. -/
def addGlobal (b : Builder) (name : String) (value : Value) : UInt16 × Builder :=
  let words := value.words
  let (offset, b) := b.reserveWords (max words.length 1)
  let b := { b with globals := Memory.setWords b.globals offset.toNat words }
  (offset, b.addDef name value.type offset)

def globalOffset? (b : Builder) (name : String) : Option UInt16 := b.names.lookup name

/-- Adds statements; the answer is the index of the first. -/
def pushStatements (b : Builder) (statements : List Statement) : Int32 × Builder :=
  (Int32.ofNat b.statements.size, { b with statements := b.statements ++ statements.toArray })

/-- Adds a function with a name and a file; the answer is its number. -/
def pushFunction (b : Builder) (name file : String) (f : FunctionRecord) : Nat × Builder :=
  let (nameRef, b) := b.addString name
  let (fileRef, b) := b.addString file
  (b.functions.size,
    { b with functions := b.functions.push { f with name := nameRef, file := fileRef } })

/-- The first eight sizes; zeros where there are fewer. -/
def parameterSizes (sizes : List UInt8) : Vector UInt8 8 :=
  Vector.ofFn fun i => sizes.getD i 0

/-- Adds a function with a fixed list of parameters; the answer is its number. -/
def addFunction (b : Builder) (name file : String) (entry : Int32) (start : UInt32)
    (sizes : List UInt8) (locals : UInt32) : Nat × Builder :=
  b.pushFunction name file { FunctionRecord.null with
    entry, start, locals
    arity := Int32.ofNat (min sizes.length maxParameters)
    sizes := parameterSizes sizes }

/-- Adds a function that takes further arguments after its parameters. -/
def addVariadic (b : Builder) (name file : String) (entry : Int32) (start : UInt32)
    (sizes : List UInt8) (locals : UInt32) : Nat × Builder :=
  let fixed := min sizes.length (maxParameters - 1)
  b.pushFunction name file { FunctionRecord.null with
    entry, start, locals
    arity := -(Int32.ofNat (fixed + 1))
    sizes := parameterSizes (sizes.take fixed) }

/-- Adds a function that a builtin stands for. Its entry is the number negated, as 32 bits give it; the
one negation that overflows is that of 2^31, where arithmetic that is checked ends the process. -/
def addBuiltin (b : Builder) (name : String) (number : UInt32) : Nat × Builder :=
  b.pushFunction name "" { FunctionRecord.null with entry := -number.toInt32 }

def setEntry (b : Builder) (function : Nat) (entry : Int32) : Builder :=
  { b with functions := b.functions.modify function ({ · with entry }) }

/-- Adds a field to entities; the answer is its offset. -/
def addField (b : Builder) (name : String) (type : ValueType) : UInt16 × Builder :=
  let offset := b.entityFields.toUInt16
  let (ref, b) := b.addString name
  (offset, { b with
    fieldDefs := b.fieldDefs.push ⟨type.tag, offset, ref⟩
    entityFields := b.entityFields + UInt32.ofNat type.width })

/-- What follows the header: the sections, one after another. -/
def body (b : Builder) : Bytes :=
  b.statements.toList.flatMap Statement.bytes ++ b.globalDefs.toList.flatMap Def.bytes ++
    b.fieldDefs.toList.flatMap Def.bytes ++ b.functions.toList.flatMap FunctionRecord.bytes ++
    b.strings.toList ++ b.globals.toList.flatMap Record.ofUInt32

def header (b : Builder) : Header :=
  let statements := Header.size
  let globalDefs := statements + b.statements.size * Statement.size
  let fieldDefs := globalDefs + b.globalDefs.size * Def.size
  let functions := fieldDefs + b.fieldDefs.size * Def.size
  let strings := functions + b.functions.size * FunctionRecord.size
  let globals := strings + b.strings.size
  let place (offset count : Nat) : Section := ⟨UInt32.ofNat offset, UInt32.ofNat count⟩
  { version := b.version
    checksum := (Checksum.crc16 b.body).toUInt32
    statements := place statements b.statements.size
    globalDefs := place globalDefs b.globalDefs.size
    fieldDefs := place fieldDefs b.fieldDefs.size
    functions := place functions b.functions.size
    strings := place strings b.strings.size
    globals := place globals b.globals.size
    entityFields := b.entityFields }

/-- The image. -/
def bytes (b : Builder) : Bytes := b.header.bytes ++ b.body

end Builder
end GameBytecode
