import GameBytecode.Image.Builder
import GameBytecode.Opcode.Table

/-!
Assembly of modules. A source lists fields, globals and functions; statements name opcodes and
operands. Every field and every function also becomes a global that holds its offset or number.
-/
namespace GameBytecode.Assembly

/-- A field, parameter or local. -/
structure Symbol where
  name : String
  type : ValueType
deriving DecidableEq, Repr

/-- A global with its value, or the text of a string. -/
structure GlobalSource where
  name : String
  value : Option Value
  text : Option String
deriving DecidableEq, Repr

inductive Operand where
  | number (n : Int)
  | name (s : String)
deriving DecidableEq, Repr

structure FunctionSource where
  name : String
  file : String
  /-- The builtin that stands for the function. -/
  builtin : Option UInt32
  params : List Symbol
  locals : List Symbol
  variadic : Bool
  /-- A mnemonic and up to three operands each; those left out are 0. -/
  statements : List (List Operand)
deriving DecidableEq, Repr

structure Source where
  version : Option UInt32
  fields : List Symbol
  globals : List GlobalSource
  functions : List FunctionSource
deriving DecidableEq, Repr

inductive Flaw where
  | noMnemonic
  | empty
  | tooManyOperands
deriving DecidableEq, Repr

def Flaw.message : Flaw → String
  | noMnemonic => "opcode must be a name"
  | empty => "empty statement"
  | tooManyOperands => "more than three operands"

inductive Error where
  | unknownOpcode (function mnemonic : String)
  | unknownName (function name : String)
  | operandRange (function : String) (value : Int)
  | malformedStatement (function : String) (index : Nat) (flaw : Flaw)
  | tooManyParams (function : String) (count max : Nat)
  | missingValue (name : String)
deriving DecidableEq, Repr

def Error.message : Error → String
  | unknownOpcode function mnemonic =>
    "Unknown opcode '" ++ mnemonic ++ "' in function " ++ function
  | unknownName function name => "Unknown name '" ++ name ++ "' in function " ++ function
  | operandRange function value =>
    "Operand " ++ toString value ++ " out of range in function " ++ function
  | malformedStatement function index flaw =>
    "Malformed statement " ++ toString index ++ " in function " ++ function ++ ": " ++ flaw.message
  | tooManyParams function count max =>
    "Function " ++ function ++ " has " ++ toString count ++ " parameters, at most " ++
      toString max ++ " are allowed"
  | missingValue name => "Global " ++ name ++ " needs either a value or a string"

/-- Names of addresses, the latest of a name first. -/
abbrev Scope := List (String × UInt16)

/-- The names of the return value and the arguments, the same in every function. -/
def reservedNames : Scope :=
  ("return", UInt16.ofNat Address.result) ::
    (List.range maxParameters).map fun n =>
      ("parm" ++ Nat.repr n, UInt16.ofNat (Address.argument n))

/-- A builder with the defs of the return value and the arguments. -/
def start (version : Option UInt32) : Builder :=
  let b := match version with
    | some v => Builder.empty.setVersion v
    | none => .empty
  reservedNames.foldl (fun b (name, address) => b.addDef name .vector address) b

def addField (b : Builder) (s : Symbol) : Builder :=
  let (offset, b) := b.addField s.name s.type
  (b.addGlobal s.name (.field offset.toUInt32)).2

/-- Adds a global; a text comes before a value. -/
def addGlobal (b : Builder) (g : GlobalSource) : Except Error Builder :=
  match g.text, g.value with
  | some text, _ =>
    let (r, b) := b.addString text
    .ok (b.addGlobal g.name (.string r.toUInt32)).2
  | none, some value => .ok (b.addGlobal g.name value).2
  | none, none => .error (.missingValue g.name)

/-- Reserves the words of a parameter or local. -/
def declare (b : Builder) (scope : Scope) (s : Symbol) : Builder × Scope :=
  let (offset, b) := b.reserveWords s.type.width
  (b.addDef s.name s.type offset, (s.name, offset) :: scope)

def declareAll (b : Builder) (scope : Scope) (symbols : List Symbol) : Builder × Scope :=
  symbols.foldl (fun (b, scope) s => declare b scope s) (b, scope)

/-- The parameters that count and locate the further arguments of a variadic function. -/
def variadicSymbols : List Symbol := [⟨"argc", .integer⟩, ⟨"argv", .pointer⟩]

/-- A function whose body is still to come: its number and the names it declares. -/
structure Declared where
  number : Nat
  scope : Scope

def declareFunction (b : Builder) (f : FunctionSource) : Except Error (Builder × Declared) := do
  if let some n := f.builtin then
    let (number, b) := b.addBuiltin f.name n
    let (_, b) := b.addGlobal f.name (.function (UInt32.ofNat number))
    return (b, ⟨number, []⟩)
  let max := if f.variadic then maxParameters - 1 else maxParameters
  if max < f.params.length then throw (.tooManyParams f.name f.params.length max)
  let start := b.globals.size
  let (b, scope) := declareAll b [] f.params
  let (b, scope) :=
    if f.variadic then
      let (b, scope) := declareAll b scope variadicSymbols
      ((b.reserveWords ((maxParameters - f.params.length) * Address.argumentWords)).2, scope)
    else (b, scope)
  let (b, scope) := declareAll b scope f.locals
  let locals := UInt32.ofNat b.globals.size - UInt32.ofNat start
  let sizes := f.params.map fun s => UInt8.ofNat s.type.width
  let (number, b) :=
    if f.variadic then b.addVariadic f.name f.file 0 (UInt32.ofNat start) sizes locals
    else b.addFunction f.name f.file 0 (UInt32.ofNat start) sizes locals
  let (_, b) := b.addGlobal f.name (.function (UInt32.ofNat number))
  return (b, ⟨number, scope⟩)

def declareFunctions (b : Builder) : List FunctionSource → Except Error (Builder × List Declared)
  | [] => .ok (b, [])
  | f :: rest => do
    let (b, d) ← declareFunction b f
    let (b, ds) ← declareFunctions b rest
    return (b, d :: ds)

/-- The address of a name: of the function, of every function, or of the module. -/
def resolve? (b : Builder) (scope : Scope) (name : String) : Option UInt16 :=
  (scope.lookup name).or ((reservedNames.lookup name).or (b.globalOffset? name))

def operand (b : Builder) (scope : Scope) (function : String) : Operand → Except Error UInt16
  | .number n =>
    if -0x8000 ≤ n ∧ n ≤ 0xffff then .ok (UInt16.ofNat (n % 0x10000).toNat)
    else .error (.operandRange function n)
  | .name s =>
    match resolve? b scope s with
    | some address => .ok address
    | none => .error (.unknownName function s)

def statement (b : Builder) (scope : Scope) (function : String) (index : Nat)
    (parts : List Operand) : Except Error Statement := do
  let malformed (flaw : Flaw) := Error.malformedStatement function index flaw
  match parts with
  | [] => throw (malformed .empty)
  | .number _ :: _ => throw (malformed .noMnemonic)
  | .name mnemonic :: rest =>
    if 3 < rest.length then throw (malformed .tooManyOperands)
    let some op := Opcode.ofMnemonic? mnemonic | throw (.unknownOpcode function mnemonic)
    let slots ← rest.mapM (operand b scope function)
    return ⟨op.code, slots.getD 0 0, slots.getD 1 0, slots.getD 2 0⟩

/-- The statements of a function; done is added to those that do not end in a return. -/
def body (b : Builder) (scope : Scope) (f : FunctionSource) : Except Error (List Statement) := do
  let statements ← f.statements.zipIdx.mapM fun (parts, index) =>
    statement b scope f.name index parts
  let isEnd (s : Statement) : Bool := s.op = Opcode.done.code || s.op = Opcode.ret.code
  if statements.getLast?.any isEnd then return statements
  else return statements ++ [⟨Opcode.done.code, 0, 0, 0⟩]

def addBody (b : Builder) (f : FunctionSource) (d : Declared) : Except Error Builder := do
  if f.builtin.isSome then return b
  let (first, b) := b.pushStatements (← body b d.scope f)
  return b.setEntry d.number first

/-- Assembles a module. Two words are left free after the globals, since a return reads three words
from its operand whatever its type. -/
def assemble (s : Source) : Except Error Builder := do
  let b := s.fields.foldl addField (start s.version)
  let b ← s.globals.foldlM addGlobal b
  let (b, declared) ← declareFunctions b s.functions
  let (_, b) := b.reserveWords (Address.argumentWords - 1)
  (s.functions.zip declared).foldlM (fun b (f, d) => addBody b f d) b

end GameBytecode.Assembly
