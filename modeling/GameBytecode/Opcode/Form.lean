import GameBytecode.Opcode

/-!
How the operands of each opcode are listed.
-/
namespace GameBytecode.Opcode

/-- How one operand is shown. -/
inductive Style where
  /-- The global's name and contents. -/
  | contents
  /-- The global's name. -/
  | name
  /-- The operand as a signed number. -/
  | number
  /-- The statement at that signed distance. -/
  | target
  /-- The global's name and contents, and nothing for operand 0. -/
  | result
deriving DecidableEq, Repr

inductive Piece where
  | text (s : String)
  | operand (style : Style) (slot : Slot)
deriving DecidableEq, Repr

abbrev Form := List Piece

/-- The form of an opcode that has none of its own. -/
def defaultForm : Form :=
  [.operand .contents .a, .text ", ", .operand .contents .b, .text ", ", .operand .name .c]

def ownForm? : Opcode → Option Form
  | done | ret => some [.operand .result .a]
  | store _ => some [.operand .contents .a, .text ", ", .operand .name .b]
  | storeThrough _ | state | jumpTable =>
    some [.operand .contents .a, .text ", ", .operand .contents .b]
  | isEmpty _ | complement _ | address _ | integerToFloat | floatToInteger | integerToUnsigned
  | unsignedToInteger => some [.operand .contents .a, .text ", ", .operand .name .c]
  | branch _ =>
    some [.operand .contents .a, .text " branch ", .operand .number .b, .text " (",
      .operand .target .b, .text ")"]
  | call _ | jump => some [.operand .contents .a]
  | goto => some [.text "branch ", .operand .number .a, .text " (", .operand .target .a, .text ")"]
  | loadNear _ | advanceNear | move =>
    some [.operand .contents .a, .text ", ", .operand .number .b, .text ", ", .operand .name .c]
  | storeAt _ | moveThrough =>
    some [.operand .contents .a, .text ", ", .operand .contents .b, .text ", ",
      .operand .contents .c]
  | storeNear _ =>
    some [.operand .contents .a, .text ", ", .operand .contents .b, .text ", ",
      .operand .number .c]
  | _ => none

def form (op : Opcode) : Form := op.ownForm?.getD defaultForm

def Slot.letter : Slot → String
  | .a => "a" | .b => "b" | .c => "c"

def Style.letter : Style → String
  | .contents => "G" | .name => "g" | .number => "s" | .target => "O" | .result => "V"

/-- A form as a pattern: an escape of two letters for each operand. -/
def Form.pattern (f : Form) : String :=
  String.join (f.map fun
    | .text s => s
    | .operand style slot => "%" ++ style.letter ++ slot.letter)

end GameBytecode.Opcode
