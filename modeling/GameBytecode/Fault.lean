import GameBytecode.Version

/-!
Causes of failure: reading an image, checking it, and running it. Each cause is a constructor; the
wording is in one function for each kind.
-/
namespace GameBytecode

/-- Why the static check rejects a statement. -/
inductive OperandFlaw where
  | unusedNotZero
  | outOfBounds
  | pastTheEnd
deriving DecidableEq, Repr

def OperandFlaw.message : OperandFlaw → String
  | unusedNotZero => "non-zero global index in void operand"
  | outOfBounds => "out of bounds global index"
  | pastTheEnd => "operand runs past the end of the globals"

inductive ValidationError where
  | unknownOpcode (statement : Nat) (code : UInt16)
  | invalidBranch (statement : Nat) (mnemonic : String) (target : Int)
  | invalidOperand (statement : Nat) (mnemonic slot : String) (value : UInt16) (flaw : OperandFlaw)
  | opcodeVersion (statement : Nat) (mnemonic : String)
deriving DecidableEq, Repr

private def place (statement : Nat) (mnemonic : String) : String :=
  "(statement " ++ toString statement ++ ": " ++ mnemonic ++ ")"

def ValidationError.message : ValidationError → String
  | unknownOpcode statement code =>
    "unknown opcode " ++ toString code.toNat ++ " at statement " ++ toString statement
  | invalidBranch statement mnemonic target =>
    "invalid branch to " ++ toString target ++ " " ++ place statement mnemonic
  | invalidOperand statement mnemonic slot value flaw =>
    flaw.message ++ " in operand " ++ slot ++ " = " ++ toString value.toNat ++ " " ++
      place statement mnemonic
  | opcodeVersion statement mnemonic =>
    "opcode not available in this module version " ++ place statement mnemonic

/-- The sections of a module image. -/
inductive SectionName where
  | statements | functions | globalDefs | fieldDefs | strings | globals
deriving DecidableEq, Repr

def SectionName.text : SectionName → String
  | statements => "statements" | functions => "functions" | globalDefs => "globaldefs"
  | fieldDefs => "fielddefs" | strings => "strings" | globals => "globals"

inductive LoadError where
  | shortHeader (size : Nat)
  | layoutOverflow
  | truncated (name : SectionName) (offset needed available : Nat)
  | version (found : UInt32)
  | allocation (words : Nat)
  | invalidFieldDef (index : Nat)
  | validation (e : ValidationError)
deriving DecidableEq, Repr

def LoadError.message : LoadError → String
  | shortHeader size =>
    "Format error: error reading header: " ++ toString size ++ " bytes, need 60"
  | layoutOverflow => "Format error: memory layout overflows the address space"
  | truncated name offset needed available =>
    "Truncated module: " ++ name.text ++ " needs " ++ toString needed ++ " bytes at offset " ++
      toString offset ++ ", file has " ++ toString available
  | version found =>
    "Version error: module is version " ++ Version.text found ++ ", expected " ++
      Version.text 0x00fff005 ++ " or " ++ Version.text 6
  | allocation words => "Allocation error: cannot reserve " ++ toString words ++ " words"
  | invalidFieldDef index =>
    "Invalid field def " ++ toString index ++ ": fields cannot be saved globals"
  | validation e => "Validation failed: " ++ e.message

/-- What stops a statement, a call or a request of the host. -/
inductive Fault where
  | stackOverflow (limit : Nat)
  | stackUnderflow
  | localsOverflow (needed available : Nat)
  | localsUnderflow
  | nullFunction
  | badFunction (number : Nat)
  | badBuiltin (number : Nat)
  | unknownOpcode (code : UInt16)
  | invalidEntityAccess (entity : Int)
  | invalidFieldAccess (field : Int)
  | worldAssignment
  | invalidJump (target : Int)
  | invalidStatement (index : Int)
  | invalidGlobal (address : Int)
  | invalidString (reference : Int)
  | runawayLoop (limit : Nat)
  | divisionByZero (mnemonic : String)
  | missingBinding (name : String)
  | functionNotFound (name : String)
  | globalNotFound (name : String)
  | fieldNotFound (name : String)
  | typeMismatch (name declared actual : String)
  | builtin (message : String)
  /-- An operation whose result 64 bits do not hold. -/
  | overflow (operation : String)
deriving DecidableEq, Repr

/-- Whether the fault ends the whole process. No builtin is told of such a fault, nothing is reported, and
nobody looks at the machine behind it. -/
def Fault.isFatal : Fault → Bool
  | .overflow _ => true
  | _ => false

def Fault.message : Fault → String
  | stackOverflow limit => "Stack overflow: call depth limit of " ++ toString limit ++ " reached"
  | stackUnderflow => "Stack underflow"
  | localsOverflow needed available =>
    "Locals stack overflow: " ++ toString needed ++ " words needed, " ++ toString available ++
      " available"
  | localsUnderflow => "Locals stack underflow"
  | nullFunction => "NULL function"
  | badFunction number => "Bad function number " ++ toString number
  | badBuiltin number => "Bad builtin call number " ++ toString number
  | unknownOpcode code => "Bad opcode " ++ toString code.toNat
  | invalidEntityAccess entity =>
    "Progs attempted to access an out of bounds entity " ++ toString entity
  | invalidFieldAccess field =>
    "Progs attempted to access an invalid field " ++ toString field ++ " in an entity"
  | worldAssignment => "Assignment to world entity"
  | invalidJump target => "Invalid jump destination " ++ toString target
  | invalidStatement index => "Statement index " ++ toString index ++ " out of range"
  | invalidGlobal address => "Invalid global access at " ++ toString address
  | invalidString reference => "Invalid string reference " ++ toString reference
  | runawayLoop limit => "Runaway loop error: " ++ toString limit ++ " statements executed"
  | divisionByZero mnemonic => "Division by zero in " ++ mnemonic
  | missingBinding name => "Missing binding for " ++ name
  | functionNotFound name => "Function not found: " ++ name
  | globalNotFound name => "Global not found: " ++ name
  | fieldNotFound name => "Field not found: " ++ name
  | typeMismatch name declared actual =>
    "Type mismatch for " ++ name ++ ": declared " ++ declared ++ ", got " ++ actual
  | builtin message => "Builtin error: " ++ message
  | overflow operation => "attempt to " ++ operation ++ " with overflow"

end GameBytecode
