import GameBytecode.Binary.Single
import GameBytecode.Opcode
import GameBytecode.Text.Utf8

/-!
The records of a module image and their bytes, least significant first.
-/
namespace GameBytecode
open Text (Bytes)

namespace Record

def ofUInt16 (n : UInt16) : Bytes := [n.toUInt8, (n >>> 8).toUInt8]

def ofUInt32 (n : UInt32) : Bytes :=
  [n.toUInt8, (n >>> 8).toUInt8, (n >>> 16).toUInt8, (n >>> 24).toUInt8]

/-- The number at an offset; 0 where the bytes end. -/
def toUInt16 (bytes : Bytes) (offset : Nat) : UInt16 :=
  match bytes.drop offset with
  | a :: b :: _ => a.toUInt16 ||| (b.toUInt16 <<< 8)
  | _ => 0

def toUInt32 (bytes : Bytes) (offset : Nat) : UInt32 :=
  match bytes.drop offset with
  | a :: b :: c :: d :: _ =>
    a.toUInt32 ||| (b.toUInt32 <<< 8) ||| (c.toUInt32 <<< 16) ||| (d.toUInt32 <<< 24)
  | _ => 0

/-- The first count records of a size. -/
def many {α : Type} (size : Nat) (read : Bytes → α) : Nat → Bytes → List α
  | 0, _ => []
  | count + 1, bytes => read (bytes.take size) :: many size read count (bytes.drop size)

end Record

/-- Most parameters a function can have, and the slots reserved for arguments. -/
def maxParameters : Nat := 8

/-- One instruction: the code of an opcode and three operands. -/
structure Statement where
  op : UInt16
  a : UInt16
  b : UInt16
  c : UInt16
deriving DecidableEq, Repr, Inhabited

namespace Statement

def size : Nat := 8

def null : Statement := ⟨0, 0, 0, 0⟩

def bytes (s : Statement) : Bytes :=
  Record.ofUInt16 s.op ++ Record.ofUInt16 s.a ++ Record.ofUInt16 s.b ++ Record.ofUInt16 s.c

def read (b : Bytes) : Statement :=
  ⟨Record.toUInt16 b 0, Record.toUInt16 b 2, Record.toUInt16 b 4, Record.toUInt16 b 6⟩

/-- The operand of a slot. -/
def slot (s : Statement) : Opcode.Slot → UInt16
  | .a => s.a | .b => s.b | .c => s.c

end Statement

/-- An operand read as a signed number. -/
def signedOperand (operand : UInt16) : Int := operand.toInt16.toInt

/-- What a module says about a function. -/
structure FunctionRecord where
  /-- First statement; negative for a builtin. -/
  entry : Int32
  /-- First word of the parameters and locals. -/
  start : UInt32
  /-- Words of parameters and locals, saved while the function is entered again. -/
  locals : UInt32
  profile : UInt32
  /-- String references of the name and the file. -/
  name : Int32
  file : Int32
  /-- Number of parameters; -1 - n for n parameters and any number of further arguments. -/
  arity : Int32
  /-- Words of each parameter. -/
  sizes : Vector UInt8 8
deriving DecidableEq, Repr

namespace FunctionRecord

def size : Nat := 36

def null : FunctionRecord := ⟨0, 0, 0, 0, 0, 0, 0, Vector.replicate 8 0⟩

def bytes (f : FunctionRecord) : Bytes :=
  Record.ofUInt32 f.entry.toUInt32 ++ Record.ofUInt32 f.start ++ Record.ofUInt32 f.locals ++
    Record.ofUInt32 f.profile ++ Record.ofUInt32 f.name.toUInt32 ++
    Record.ofUInt32 f.file.toUInt32 ++ Record.ofUInt32 f.arity.toUInt32 ++ f.sizes.toList

def read (b : Bytes) : FunctionRecord where
  entry := (Record.toUInt32 b 0).toInt32
  start := Record.toUInt32 b 4
  locals := Record.toUInt32 b 8
  profile := Record.toUInt32 b 12
  name := (Record.toUInt32 b 16).toInt32
  file := (Record.toUInt32 b 20).toInt32
  arity := (Record.toUInt32 b 24).toInt32
  sizes := Vector.ofFn fun i => (b.drop 28).getD i 0

def isBuiltin (f : FunctionRecord) : Bool := f.entry < 0

/-- The number of the builtin that stands for the function. -/
def builtin? (f : FunctionRecord) : Option UInt32 :=
  if f.isBuiltin then some (0 - f.entry.toUInt32) else none

/-- Whether further arguments may follow the parameters. -/
def isVariadic (f : FunctionRecord) : Bool := f.arity < 0

/-- Parameters that are copied by position. -/
def fixedCount (f : FunctionRecord) : Nat :=
  min (if f.isVariadic then -(f.arity.toInt + 1) else f.arity.toInt).toNat maxParameters

/-- Words of each parameter copied by position. -/
def fixedSizes (f : FunctionRecord) : List Nat :=
  (f.sizes.toList.take f.fixedCount).map (·.toNat)

/-- The function has a first statement other than the null statement. -/
def firstStatement? (f : FunctionRecord) : Option Nat :=
  if 0 < f.entry then some f.entry.toInt.toNat else none

end FunctionRecord

/-- A named global or field: type tag, offset and string reference of the name. -/
structure Def where
  tag : UInt16
  offset : UInt16
  name : Int32
deriving DecidableEq, Repr, Inhabited

namespace Def

def size : Nat := 8

def null : Def := ⟨0, 0, 0⟩

def bytes (d : Def) : Bytes :=
  Record.ofUInt16 d.tag ++ Record.ofUInt16 d.offset ++ Record.ofUInt32 d.name.toUInt32

def read (b : Bytes) : Def :=
  ⟨Record.toUInt16 b 0, Record.toUInt16 b 2, (Record.toUInt32 b 4).toInt32⟩

def type? (d : Def) : Option ValueType := ValueType.ofTag? d.tag

/-- Whether saved games keep the global. -/
def isSaved (d : Def) : Bool := d.tag &&& ValueType.saveFlag != 0

end Def

end GameBytecode
