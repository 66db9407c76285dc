import GameBytecode.Machine

/-!
The host's view of a machine: globals and entity fields by name, parameters and results by place.
-/
namespace GameBytecode.Machine

def string (v : Machine) (r : StringRef) : Except Fault String := v.store.strings.getText r

/-- The address of an argument, which has 32 bits. -/
def argumentAddress (n : Nat) : Int := (Address.argument n % 0x100000000 : Nat)

def wordAt (v : Machine) (address : Int) : Except Fault Word := v.store.memory.read address

def vectorAt (v : Machine) (address : Int) : Except Fault Vector3 :=
  (v.store.memory.slice address 3).map fun ws => ⟨ws.getD 0 0, ws.getD 1 0, ws.getD 2 0⟩

def paramWord (v : Machine) (n : Nat) : Except Fault Word := v.wordAt (argumentAddress n)

def paramVector (v : Machine) (n : Nat) : Except Fault Vector3 := v.vectorAt (argumentAddress n)

def paramString (v : Machine) (n : Nat) : Except Fault String := do
  v.string (← v.paramWord n).toInt32

def resultWord (v : Machine) : Except Fault Word := v.wordAt Address.result

def resultVector (v : Machine) : Except Fault Vector3 := v.vectorAt Address.result

def globalDef (v : Machine) (name : String) : Except Fault Def :=
  match v.program.findGlobal? name with
  | some d => .ok d
  | none => .error (.globalNotFound name)

def fieldDef (v : Machine) (name : String) : Except Fault Def :=
  match v.program.findField? name with
  | some d => .ok d
  | none => .error (.fieldNotFound name)

/-- The value at an address, of the type that a def declares. -/
def readTyped (v : Machine) (name : String) (d : Def) (address : Int) : Except Fault Value := do
  let some type := d.type? | throw (.typeMismatch name "unknown" "value")
  let words ← v.store.memory.slice address type.width
  match Value.ofWords? type words with
  | some value => return value
  | none => throw (.invalidGlobal address)

/-- The words to write for a value, if it has the type that a def declares. -/
def typedWords (name : String) (d : Def) (value : Value) : Except Fault (List Word) :=
  if d.type? = some value.type then .ok value.words
  else .error (.typeMismatch name ((d.type?.map (·.name)).getD "unknown") value.type.name)

def globalValue (v : Machine) (name : String) : Except Fault Value := do
  let d ← v.globalDef name
  v.readTyped name d d.offset.toNat

/-- Where a global is and what to write there for a value. -/
def globalTarget (v : Machine) (name : String) (value : Value) :
    Except Fault (Int × List Word) := do
  let d ← v.globalDef name
  return (d.offset.toNat, ← typedWords name d value)

/-- The address of a field of an entity, both of which have to exist. -/
def fieldIndex (v : Machine) (entity field : Nat) : Except Fault Nat :=
  let l := v.program.layout
  if !l.hasEntity entity then .error (.invalidEntityAccess entity)
  else if !l.hasField field 1 then .error (.invalidFieldAccess field)
  else (l.fieldAddress entity field).map fun address => (address % 0x100000000).toNat

/-- The def of a field and its address in an entity, with all its words inside the record. -/
def fieldPlace (v : Machine) (entity : Nat) (name : String) : Except Fault (Def × Int) := do
  let d ← v.fieldDef name
  let address ← v.fieldIndex entity d.offset.toNat
  unless v.program.layout.hasField d.offset.toNat ((d.type?.map (·.width)).getD 1) do
    throw (.invalidFieldAccess d.offset.toNat)
  return (d, address)

def fieldValue (v : Machine) (entity : Nat) (name : String) : Except Fault Value := do
  let (d, address) ← v.fieldPlace entity name
  v.readTyped name d address

def fieldTarget (v : Machine) (entity : Nat) (name : String) (value : Value) :
    Except Fault (Int × List Word) := do
  let (d, address) ← v.fieldPlace entity name
  return (address, ← typedWords name d value)

def profileReport (v : Machine) (top : Nat) : List Profile.Entry :=
  Profile.report v.program v.profile top

end GameBytecode.Machine
