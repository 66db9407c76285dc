import GameBytecode.Module
import GameBytecode.Opcode.Table

/-!
The static check of a module. A statement passes if its opcode is known and allowed in the version
of the module, its relative branch lands on a statement, and all words that its operands name are
globals. Three words count for a vector and for the value of a return.
-/
namespace GameBytecode.Validation

/-- What is wrong with an operand of a type, in a module with a number of globals. -/
def flaw? (globals : Nat) (type : ValueType) (operand : UInt16) : Option OperandFlaw :=
  match type with
  | .immediate => none
  | .void => if operand = 0 then none else some .unusedNotZero
  | _ =>
    if globals ≤ operand.toNat then some .outOfBounds
    else if globals < operand.toNat + type.width then some .pastTheEnd
    else none

def checkOperand (m : Module) (index : Nat) (op : Opcode) (slot : Opcode.Slot) (type : ValueType)
    (operand : UInt16) : Except ValidationError Unit :=
  let letter := match slot with
    | .a => "a" | .b => "b" | .c => "c"
  match flaw? m.header.globals.count.toNat type operand with
  | some flaw => .error (.invalidOperand index op.mnemonic letter operand flaw)
  | none => .ok ()

def checkBranch (m : Module) (index : Nat) (op : Opcode) (operand : UInt16) :
    Except ValidationError Unit :=
  let target := index + signedOperand operand
  if target < 0 ∨ m.statements.size ≤ target then
    .error (.invalidBranch index op.mnemonic target)
  else .ok ()

def checkStatement (m : Module) (index : Nat) (s : Statement) : Except ValidationError Unit := do
  let some op := Opcode.ofCode? s.op | throw (.unknownOpcode index s.op)
  unless op.allowedIn m.version do throw (.opcodeVersion index op.mnemonic)
  match op with
  | .branch _ =>
    checkOperand m index op .a op.operands.a s.a
    checkBranch m index op s.b
  | .goto => checkBranch m index op s.a
  | .done | .ret =>
    checkOperand m index op .a .vector s.a
    checkOperand m index op .b .void s.b
    checkOperand m index op .c .void s.c
  | _ =>
    checkOperand m index op .a op.operands.a s.a
    checkOperand m index op .b op.operands.b s.b
    checkOperand m index op .c op.operands.c s.c

def checkFrom (m : Module) (index : Nat) : List Statement → Except ValidationError Unit
  | [] => .ok ()
  | s :: rest => do
    checkStatement m index s
    checkFrom m (index + 1) rest

/-- Checks every statement up to the first that fails. -/
def check (m : Module) : Except ValidationError Unit := checkFrom m 0 m.statements.toList

end GameBytecode.Validation
