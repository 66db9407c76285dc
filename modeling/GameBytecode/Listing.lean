import GameBytecode.Memory
import GameBytecode.Module
import GameBytecode.Opcode.Form
import GameBytecode.Opcode.Table
import GameBytecode.Stack
import GameBytecode.Text.Blank
import GameBytecode.Text.Word

/-!
The listing of a module: statements with their operands by name, and the lines of a call stack.
Contents of globals are those of a memory at the time of listing.
-/
namespace GameBytecode.Listing

def padNat (width n : Nat) : String := Text.padLeft width '0' (Nat.repr n)

/-- A number padded with zeros between its sign and its digits. -/
def padInt (width : Nat) (i : Int) : String :=
  if i < 0 then "-" ++ padNat (width - 1) i.natAbs else padNat width i.natAbs

/-- The contents of a global, read as a type where one is known. -/
def contents (m : Module) (memory : Memory) (address : UInt16) (type : Option ValueType) : String :=
  match memory.slice address.toNat ((type.map (·.width)).getD 1) with
  | .error _ => "?"
  | .ok words =>
    match type.bind (Value.ofWords? · words) with
    | some (.string r) =>
      if r.toInt32 < 0 then "temp " ++ toString (Word.toSigned r)
      else Text.quote (m.text r.toInt32)
    | some (.function number) =>
      if number ≠ 0 ∧ number.toNat < m.functions.size then m.functionName number.toNat ++ "()"
      else "function " ++ toString number.toNat
    | some .void | none => Word.text (words.headD 0)
    | some value => value.text

/-- The name of the global at an address, or the address itself. -/
def name (m : Module) (address : UInt16) : String :=
  let found := match m.globalAt? address with
    | some d => m.text d.name
    | none => ""
  if found = "" then "[" ++ padNat 4 address.toNat ++ "]" else found

/-- A global with its contents. The declared type comes before the one the opcode expects, and
types without a shape of their own tell nothing. -/
def global (m : Module) (memory : Memory) (address : UInt16) (expected : ValueType) : String :=
  let declared := m.globalType? address
  let type := match expected with
    | .void | .immediate | .struct => declared
    | other => declared.or (some other)
  name m address ++ "(" ++ contents m memory address type ++ ")"

def operand (m : Module) (memory : Memory) (index : Nat) (style : Opcode.Style) (operand : UInt16)
    (type : ValueType) : String :=
  match style with
  | .contents => global m memory operand type
  | .name => name m operand
  | .number => toString (signedOperand operand)
  | .target => padInt 5 (index + signedOperand operand)
  | .result => if operand = 0 then "" else global m memory operand .void

def operands (m : Module) (memory : Memory) (index : Nat) (s : Statement) (op : Opcode) : String :=
  let piece : Opcode.Piece → String
    | .text t => t
    | .operand style slot => operand m memory index style (s.slot slot) (op.operands.get slot)
  Text.trimEnd (String.join (op.form.map piece))

/-- The line of one statement. -/
def line (m : Module) (memory : Memory) (index : Nat) : String :=
  padNat 5 index ++ " " ++
    match m.statements[index]? with
    | none => "<out of range>"
    | some s =>
      match Opcode.ofCode? s.op with
      | none => "<unknown opcode " ++ toString s.op.toNat ++ ">"
      | some op =>
        let shown := operands m memory index s op
        if shown = "" then op.mnemonic else op.mnemonic ++ " " ++ shown

/-- The function whose header stands before a statement: the last one entered there. -/
def headerAt? (m : Module) (index : Nat) : Option Nat :=
  (List.range m.functions.size).reverse.find? fun number =>
    (m.function? number).bind (·.firstStatement?) = some index

def range (m : Module) (memory : Memory) (start stop : Nat) : List String :=
  ((List.range (stop - start)).map (start + ·)).flatMap fun index =>
    match headerAt? m index with
    | some number =>
      [m.functionName number ++ " (" ++ m.functionFile number ++ "):", line m memory index]
    | none => [line m memory index]

/-- The lines of all statements. -/
def all (m : Module) (memory : Memory) : List String := range m memory 0 m.statements.size

/-- The lines of one function. -/
def function (m : Module) (memory : Memory) (number : Nat) : List String :=
  let (start, stop) := m.functionRange number
  range m memory start stop

/-- One line of a call stack. -/
def frame (m : Module) (function statement : Nat) : String :=
  if function = 0 then "<host>"
  else m.functionName function ++ " (" ++ m.functionFile function ++ ") at " ++ toString statement

/-- The call stack, innermost first, from the current place on. -/
def backtrace (m : Module) (calls : CallStack) (function statement : Nat) : List String :=
  frame m function statement ::
    (calls.frames.filter (·.function ≠ 0)).map fun f => frame m f.function f.statement

/-- The whole module: its functions with their entries and its statements. -/
def dump (m : Module) : Except LoadError String := do
  let memory ← Memory.allocate m.layout.total
  let memory : Memory := ⟨Memory.setWords memory.words 0 (m.globals.toList.take m.layout.globals)⟩
  let entry (f : FunctionRecord) : String := match f.builtin? with
    | some number => "builtin #" ++ toString number.toNat
    | none => padInt 5 f.entry.toInt
  let functions := (m.functions.toList.drop 1).map fun f =>
    "  " ++ m.text f.name ++ " -> " ++ entry f ++ "\n"
  return "Module: version " ++ Version.text m.version ++ ", crc " ++
    Text.padLeft 4 '0' (Text.hex m.checksum.toNat) ++ ", " ++ toString m.size ++ " bytes\n" ++
    "Function Table:\n" ++ String.join functions ++ "\nStatements:\n" ++
    String.join ((all m memory).map (· ++ "\n"))

end Listing
end GameBytecode
