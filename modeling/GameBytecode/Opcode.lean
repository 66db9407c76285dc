import GameBytecode.ValueType

/-!
Opcodes, grouped by what they do, and what each declares: its mnemonic, its operator symbol, the
types of its three operand slots, the version that introduced it and the form of its listing.
-/
namespace GameBytecode

/-- Kinds of number that arithmetic works on. -/
inductive Numeric where
  | float | integer | unsigned
deriving DecidableEq, Repr

inductive Arithmetic where
  | add | sub | mul | div | mod | bitAnd | bitOr | bitXor | shiftLeft | shiftRight
deriving DecidableEq, Repr

inductive Comparison where
  | eq | ne | le | ge | lt | gt
deriving DecidableEq, Repr

inductive Connective where
  | and | or
deriving DecidableEq, Repr

/-- Kinds of value with an order. -/
inductive Ordered where
  | float | string | integer | unsigned | pointer
deriving DecidableEq, Repr

/-- Kinds of value that are only told apart. -/
inductive Identified where
  | vector | entity | function
deriving DecidableEq, Repr

/-- Kinds of value that negation tests for being empty. -/
inductive Testable where
  | float | vector | string | entity | function | integer | unsigned | pointer
deriving DecidableEq, Repr

/-- Kinds of value that loads and stores move. -/
inductive Cell where
  | float | vector | string | entity | field | function | integer | unsigned | pointer
deriving DecidableEq, Repr

/-- When a relative branch is taken. -/
inductive Condition where
  | nonzero | zero | notPositive | negative | notNegative | positive
deriving DecidableEq, Repr

inductive Opcode where
  | done
  | ret
  | arithmetic (kind : Numeric) (op : Arithmetic)
  | complement (kind : Numeric)
  /-- The inner product of two vectors. -/
  | dot
  | scaleByLeft
  | scaleByRight
  | addVectors
  | subVectors
  | concat
  | compare (kind : Ordered) (op : Comparison)
  | same (kind : Identified) (equal : Bool)
  | connective (kind : Numeric) (op : Connective)
  | isEmpty (kind : Testable)
  | integerToFloat
  | floatToInteger
  | integerToUnsigned
  | unsignedToInteger
  /-- A field of an entity. -/
  | load (cell : Cell)
  | fieldAddress
  | store (cell : Cell)
  /-- A store through a pointer. -/
  | storeThrough (cell : Cell)
  /-- Loads and stores through a pointer and an offset, from a global or from the statement. -/
  | loadAt (cell : Cell)
  | loadNear (cell : Cell)
  | storeAt (cell : Cell)
  | storeNear (cell : Cell)
  /-- The address of a global. -/
  | address (cell : Cell)
  | advance
  | advanceNear
  | branch (condition : Condition)
  | goto
  | jump
  /-- A jump to a statement number held in a table. -/
  | jumpTable
  | call (argc : Fin 9)
  /-- Schedules the next frame of the entity that runs. -/
  | state
  | move
  | moveThrough
deriving DecidableEq, Repr

/-- The two module versions. The extended one admits every opcode. -/
def basicVersion : UInt32 := 6
def extendedVersion : UInt32 := 0x00fff005

def Numeric.type : Numeric → ValueType
  | .float => .float | .integer => .integer | .unsigned => .unsigned

def Ordered.type : Ordered → ValueType
  | .float => .float | .string => .string | .integer => .integer | .unsigned => .unsigned
  | .pointer => .pointer

def Identified.type : Identified → ValueType
  | .vector => .vector | .entity => .entity | .function => .function

def Testable.type : Testable → ValueType
  | .float => .float | .vector => .vector | .string => .string | .entity => .entity
  | .function => .function | .integer => .integer | .unsigned => .unsigned | .pointer => .pointer

def Cell.type : Cell → ValueType
  | .float => .float | .vector => .vector | .string => .string | .entity => .entity
  | .field => .field | .function => .function | .integer => .integer | .unsigned => .unsigned
  | .pointer => .pointer

/-- Words that a load or store moves. -/
def Cell.width (c : Cell) : Nat := c.type.width

def Arithmetic.symbol : Arithmetic → String
  | .add => "+" | .sub => "-" | .mul => "*" | .div => "/" | .mod => "%"
  | .bitAnd => "&" | .bitOr => "|" | .bitXor => "^" | .shiftLeft => "<<" | .shiftRight => ">>"

def Arithmetic.stem : Arithmetic → String
  | .add => "add" | .sub => "sub" | .mul => "mul" | .div => "div" | .mod => "mod"
  | .bitAnd => "bitand" | .bitOr => "bitor" | .bitXor => "bitxor" | .shiftLeft => "shl"
  | .shiftRight => "shr"

def Comparison.symbol : Comparison → String
  | .eq => "==" | .ne => "!=" | .le => "<=" | .ge => ">=" | .lt => "<" | .gt => ">"

def Comparison.stem : Comparison → String
  | .eq => "eq" | .ne => "ne" | .le => "le" | .ge => "ge" | .lt => "lt" | .gt => "gt"

def Numeric.suffix : Numeric → String
  | .float => ".f" | .integer => ".i" | .unsigned => ".u"

/-- The suffix of a mnemonic that names a type. -/
def Cell.suffix : Cell → String
  | .float => ".f" | .vector => ".v" | .string => ".s" | .entity => ".ent" | .field => ".fld"
  | .function => ".fnc" | .integer => ".i" | .unsigned => ".u" | .pointer => ".p"

def Testable.suffix : Testable → String
  | .float => ".f" | .vector => ".v" | .string => ".s" | .entity => ".ent"
  | .function => ".fnc" | .integer => ".i" | .unsigned => ".u" | .pointer => ".p"

def Ordered.suffix : Ordered → String
  | .float => ".f" | .string => ".s" | .integer => ".i" | .unsigned => ".u" | .pointer => ".p"

def Identified.suffix : Identified → String
  | .vector => ".v" | .entity => ".e" | .function => ".fnc"

def Condition.mnemonic : Condition → String
  | .nonzero => "if" | .zero => "ifnot" | .notPositive => "ifbe" | .negative => "ifb"
  | .notNegative => "ifae" | .positive => "ifa"

namespace Opcode

/-- The name of the opcode in assembly. The two oldest bit operations carry no suffix. -/
def mnemonic : Opcode → String
  | done => "done"
  | ret => "return"
  | arithmetic .float .bitAnd => "bitand"
  | arithmetic .float .bitOr => "bitor"
  | arithmetic kind op => op.stem ++ kind.suffix
  | complement kind => "bitnot" ++ kind.suffix
  | dot => "mul.v"
  | scaleByLeft => "mul.fv"
  | scaleByRight => "mul.vf"
  | addVectors => "add.v"
  | subVectors => "sub.v"
  | concat => "add.s"
  | compare kind op => op.stem ++ kind.suffix
  | same kind equal => (if equal then "eq" else "ne") ++ kind.suffix
  | connective kind .and => "and" ++ kind.suffix
  | connective kind .or => "or" ++ kind.suffix
  | isEmpty kind => "not" ++ kind.suffix
  | integerToFloat => "conv.if"
  | floatToInteger => "conv.fi"
  | integerToUnsigned => "conv.iu"
  | unsignedToInteger => "conv.ui"
  | load cell => "load" ++ cell.suffix
  | fieldAddress => "address"
  | store cell => "store" ++ cell.suffix
  | storeThrough cell => "storep" ++ cell.suffix
  | loadAt cell => "loadb" ++ cell.suffix
  | loadNear cell => "loadbi" ++ cell.suffix
  | storeAt cell => "storeb" ++ cell.suffix
  | storeNear cell => "storebi" ++ cell.suffix
  | address cell => "address" ++ cell.suffix
  | advance => "lea"
  | advanceNear => "leai"
  | branch condition => condition.mnemonic
  | goto => "goto"
  | jump => "jump"
  | jumpTable => "jumpb"
  | call argc => "call" ++ Nat.repr argc.val
  | state => "state"
  | move => "move"
  | moveThrough => "movep"

/-- The operator as a compiler spells it. -/
def symbol : Opcode → String
  | done => "<DONE>"
  | ret => "<RETURN>"
  | arithmetic _ op => op.symbol
  | complement _ => "~"
  | dot | scaleByLeft | scaleByRight => "*"
  | addVectors | concat => "+"
  | subVectors => "-"
  | compare _ op => op.symbol
  | same _ equal => if equal then "==" else "!="
  | connective _ .and => "&&"
  | connective _ .or => "||"
  | isEmpty _ => "!"
  | integerToFloat | floatToInteger | integerToUnsigned | unsignedToInteger | store _ => "="
  | load _ | loadAt _ | loadNear _ => "."
  | fieldAddress | address _ | advance | advanceNear => "&"
  | storeThrough _ | storeAt _ | storeNear _ => ".="
  | branch .nonzero => "<IF>"
  | branch .zero => "<IFNOT>"
  | branch .notPositive => "<IFBE>"
  | branch .negative => "<IFB>"
  | branch .notNegative => "<IFAE>"
  | branch .positive => "<IFA>"
  | goto => "<GOTO>"
  | jump => "<JUMP>"
  | jumpTable => "<JUMPB>"
  | call argc => "<CALL" ++ Nat.repr argc.val ++ ">"
  | state => "<STATE>"
  | move | moveThrough => "<MOVE>"

/-- One of the three operand slots of a statement. -/
inductive Slot where
  | a | b | c
deriving DecidableEq, Repr

/-- The declared types of the operand slots. -/
structure Operands where
  a : ValueType
  b : ValueType
  c : ValueType
deriving DecidableEq, Repr

def Operands.get (o : Operands) : Slot → ValueType
  | .a => o.a | .b => o.b | .c => o.c

/-- How the interpreter reads each slot: void is unused, immediate a number in the statement,
anything else the address of a global of that type. -/
def operands : Opcode → Operands
  | done => ⟨.entity, .field, .void⟩
  | ret => ⟨.void, .void, .void⟩
  | arithmetic kind _ => ⟨kind.type, kind.type, kind.type⟩
  | complement kind => ⟨kind.type, .void, kind.type⟩
  | dot => ⟨.vector, .vector, .float⟩
  | scaleByLeft => ⟨.float, .vector, .vector⟩
  | scaleByRight => ⟨.vector, .float, .vector⟩
  | addVectors | subVectors => ⟨.vector, .vector, .vector⟩
  | concat => ⟨.string, .string, .string⟩
  | compare .float .eq | compare .float .ne => ⟨.float, .float, .integer⟩
  | compare .float _ => ⟨.float, .float, .float⟩
  | compare kind _ => ⟨kind.type, kind.type, .integer⟩
  | same kind _ => ⟨kind.type, kind.type, .integer⟩
  | connective kind _ => ⟨kind.type, kind.type, .integer⟩
  | isEmpty kind => ⟨kind.type, .void, .integer⟩
  | integerToFloat => ⟨.integer, .void, .float⟩
  | floatToInteger => ⟨.float, .void, .integer⟩
  | integerToUnsigned => ⟨.integer, .void, .unsigned⟩
  | unsignedToInteger => ⟨.unsigned, .void, .integer⟩
  | load cell => ⟨.entity, .field, cell.type⟩
  | fieldAddress => ⟨.entity, .field, .pointer⟩
  | store cell => ⟨cell.type, cell.type, .void⟩
  | storeThrough cell => ⟨cell.type, .pointer, .void⟩
  | loadAt cell => ⟨.pointer, .integer, cell.type⟩
  | loadNear cell => ⟨.pointer, .immediate, cell.type⟩
  | storeAt cell => ⟨cell.type, .pointer, .integer⟩
  | storeNear cell => ⟨cell.type, .pointer, .immediate⟩
  | address cell => ⟨cell.type, .void, .pointer⟩
  | advance => ⟨.pointer, .integer, .pointer⟩
  | advanceNear => ⟨.pointer, .immediate, .pointer⟩
  | branch _ => ⟨.integer, .immediate, .void⟩
  | goto => ⟨.immediate, .void, .void⟩
  | jump => ⟨.integer, .void, .void⟩
  | jumpTable => ⟨.pointer, .integer, .void⟩
  | call _ => ⟨.function, .void, .void⟩
  | state => ⟨.float, .function, .void⟩
  | move => ⟨.struct, .immediate, .struct⟩
  | moveThrough => ⟨.pointer, .integer, .pointer⟩

/-- Whether the basic version already has the opcode. -/
def isBasic : Opcode → Bool
  | done | ret | dot | scaleByLeft | scaleByRight | addVectors | subVectors => true
  | arithmetic .float op => op ∈ [.add, .sub, .mul, .div, .bitAnd, .bitOr]
  | compare .float _ | compare .string .eq | compare .string .ne => true
  | same .. => true
  | connective .float _ => true
  | isEmpty kind => kind ∈ [.float, .vector, .string, .entity, .function]
  | load cell | store cell | storeThrough cell =>
    cell ∈ [.float, .vector, .string, .entity, .field, .function]
  | fieldAddress | goto | call _ | state => true
  | branch .nonzero | branch .zero => true
  | _ => false

/-- The version that introduced the opcode. -/
def introduced (op : Opcode) : UInt32 := if op.isBasic then basicVersion else extendedVersion

/-- Whether a module of a version may use the opcode. -/
def allowedIn (op : Opcode) (version : UInt32) : Bool :=
  if version = basicVersion then op.introduced = basicVersion else true

/-- Argument count of a call. -/
def argumentCount? : Opcode → Option Nat
  | call argc => some argc.val
  | _ => none

/-- Whether the second slot is a relative branch. -/
def isConditionalBranch : Opcode → Bool
  | branch _ => true
  | _ => false

end Opcode
end GameBytecode
