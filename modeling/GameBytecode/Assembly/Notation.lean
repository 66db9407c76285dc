import GameBytecode.Assembly
import GameBytecode.Json.Decode
import GameBytecode.Json.Reader

/-!
Assembly sources as JSON.
-/
namespace GameBytecode.Assembly
open Json

private def word? (low : Int) (high : Int) (j : Json) : Option Word :=
  (j.integer? low high).map Word.ofSigned

private def signed? : Json → Option Word := word? (-0x80000000) 0x80000000

private def unsigned? (j : Json) : Option Word := j.uint32?

/-- The content of a value of a named type; void has none. -/
def content? (type : String) (content : Json) : Option Value :=
  match type with
  | "void" => if content == .null then some .void else none
  | "string" => (signed? content).map .string
  | "float" => content.float?.map .float
  | "vector" =>
    match content.list? Json.float? with
    | some [x, y, z] => some (.vector ⟨x, y, z⟩)
    | _ => none
  | "entity" => (unsigned? content).map .entity
  | "field" => (unsigned? content).map .field
  | "function" => (unsigned? content).map .function
  | "pointer" => (unsigned? content).map .pointer
  | "quaternion" =>
    match content.list? Json.float? with
    | some [x, y, z, w] => some (.quaternion x y z w)
    | _ => none
  | "integer" => (signed? content).map .integer
  | "uinteger" => (unsigned? content).map .unsigned
  | _ => none

/-- A value: its type beside its content. An array names the type and gives the content; an object
may also spell the type as an alternative, and may leave out the content of void. -/
def value? : Json → Option Value
  | .array [.string type, content] => content? type content
  | .array _ => none
  | j => do
    let members ← j.record? ["type", "value"]
    let type ← Json.member? members "type" Json.choice?
    match members.lookup "value" with
    | some content => content? type content
    | none => if type = "void" then some .void else none

def type? (j : Json) : Option ValueType := j.choice?.bind ValueType.ofName?

def symbol? (j : Json) : Option Symbol := do
  let members ← j.record? ["name", "type"]
  return ⟨← Json.member? members "name" Json.text?, ← Json.member? members "type" type?⟩

def globalSource? (j : Json) : Option GlobalSource := do
  let members ← j.record? ["name", "value", "string"]
  return {
    name := ← Json.member? members "name" Json.text?
    value := ← Json.memberD members "value" (Json.optional? value?) none
    text := ← Json.memberD members "string" (Json.optional? Json.text?) none }

/-- A name, or a signed number of 64 bits. -/
def operand? : Json → Option Operand
  | .integer i =>
    if -0x8000000000000000 ≤ i ∧ i < 0x8000000000000000 then some (.number i) else none
  | .string s => some (.name s)
  | _ => none

def functionSource? (j : Json) : Option FunctionSource := do
  let members ← j.record?
    ["name", "file", "builtin", "params", "locals", "variadic", "statements"]
  return {
    name := ← Json.memberD members "name" Json.text? ""
    file := ← Json.memberD members "file" Json.text? ""
    builtin := ← Json.memberD members "builtin" (Json.optional? Json.uint32?) none
    params := ← Json.memberD members "params" (Json.list? symbol?) []
    locals := ← Json.memberD members "locals" (Json.list? symbol?) []
    variadic := ← Json.memberD members "variadic" Json.bool? false
    statements := ← Json.memberD members "statements" (Json.list? (Json.list? operand?)) [] }

def source? (j : Json) : Option Source := do
  let members ← j.record? ["version", "fields", "globals", "functions"]
  return {
    version := ← Json.memberD members "version" (Json.optional? Json.uint32?) none
    fields := ← Json.memberD members "fields" (Json.list? symbol?) []
    globals := ← Json.memberD members "globals" (Json.list? globalSource?) []
    functions := ← Json.memberD members "functions" (Json.list? functionSource?) [] }

def parse? (text : String) : Option Source := (Json.parse? text).bind source?

private def floatJson (w : Word) : Json :=
  if Single.isFinite w then .float (Single.toDouble w) else .null

def valueJson (v : Value) : Json :=
  let content : List (String × Json) := match v with
    | .void => []
    | .string a | .integer a => [("value", .integer (Word.toSigned a))]
    | .float a => [("value", floatJson a)]
    | .vector v => [("value", .array (v.toList.map floatJson))]
    | .quaternion x y z w => [("value", .array ([x, y, z, w].map floatJson))]
    | .entity a | .field a | .function a | .pointer a | .unsigned a =>
      [("value", .integer a.toNat)]
  .object (("type", .string v.type.name) :: content)

def symbolJson (s : Symbol) : Json :=
  .object [("name", .string s.name), ("type", .string s.type.name)]

private def present (key : String) : Option Json → List (String × Json)
  | some j => [(key, j)]
  | none => []

def globalJson (g : GlobalSource) : Json :=
  .object (("name", .string g.name) :: present "value" (g.value.map valueJson) ++
    present "string" (g.text.map .string))

def operandJson : Operand → Json
  | .number n => .integer n
  | .name s => .string s

def functionJson (f : FunctionSource) : Json :=
  .object ([("name", .string f.name), ("file", .string f.file)] ++
    present "builtin" (f.builtin.map fun n => .integer n.toNat) ++
    [("params", .array (f.params.map symbolJson)), ("locals", .array (f.locals.map symbolJson)),
      ("variadic", .bool f.variadic),
      ("statements", .array (f.statements.map fun parts => .array (parts.map operandJson)))])

/-- A source in full, but for what is absent. -/
def sourceJson (s : Source) : Json :=
  .object (present "version" (s.version.map fun n => .integer n.toNat) ++
    [("fields", .array (s.fields.map symbolJson)), ("globals", .array (s.globals.map globalJson)),
      ("functions", .array (s.functions.map functionJson))])

end GameBytecode.Assembly
