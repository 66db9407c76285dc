/-!
Types of values: the tags carried by defs and by the operand slots of opcodes.
-/
namespace GameBytecode

inductive ValueType where
  | void | string | float | vector | entity | field | function | pointer | quaternion
  | integer | unsigned
  /-- A signed number held in the statement itself. -/
  | immediate
  /-- A run of words whose length the statement gives. -/
  | struct
deriving DecidableEq, Repr, Inhabited

namespace ValueType

/-- All types, in the order of their tags. -/
def all : List ValueType :=
  [void, string, float, vector, entity, field, function, pointer, quaternion, integer, unsigned,
    immediate, struct]

def tag : ValueType → UInt16
  | void => 0 | string => 1 | float => 2 | vector => 3 | entity => 4 | field => 5
  | function => 6 | pointer => 7 | quaternion => 8 | integer => 9 | unsigned => 10
  | immediate => 11 | struct => 12

/-- The bit of a tag that marks a global as part of saved games. -/
def saveFlag : UInt16 := 0x8000

/-- The type of a tag, whether or not the save flag is set. -/
def ofTag? (tag : UInt16) : Option ValueType := all[(tag &&& 0x7fff).toNat]?

def name : ValueType → String
  | void => "void" | string => "string" | float => "float" | vector => "vector"
  | entity => "entity" | field => "field" | function => "function" | pointer => "pointer"
  | quaternion => "quaternion" | integer => "integer" | unsigned => "uinteger"
  | immediate => "short" | struct => "struct"

def ofName? (name : String) : Option ValueType := all.find? (·.name == name)

/-- Words that a value of the type takes in memory. -/
def width : ValueType → Nat
  | vector => 3
  | quaternion => 4
  | _ => 1

end ValueType
end GameBytecode
