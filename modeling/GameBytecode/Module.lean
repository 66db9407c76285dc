import GameBytecode.Image.Header
import GameBytecode.Memory.Layout
import GameBytecode.StringArena

/-!
A loaded module and what can be looked up in it. Names are decoded from the text of the module; of
several entries with one name the first is found, and the empty name finds nothing.
-/
namespace GameBytecode
open Text (Bytes)

/-- The globals and fields that statements refer to by name. -/
structure Bindings where
  self : Option Nat
  time : Option Nat
  nextThink : Option Nat
  frame : Option Nat
  think : Option Nat
deriving DecidableEq, Repr, Inhabited

/-- Places under keys. -/
abbrev Index (κ : Type) := List (κ × Nat)

namespace Index
variable {κ : Type} [BEq κ]

/-- Enters a place, unless there is one under its key. -/
def enter (index : Index κ) (entry : κ × Nat) : Index κ :=
  if (index.lookup entry.1).isSome then index else entry :: index

def ofEntries (entries : List (κ × Nat)) : Index κ := entries.foldl enter []

/-- The places of names. The empty name has none. -/
def ofNames (names : List String) : Index String := ofEntries (names.zipIdx.filter (·.1 ≠ ""))

end Index

/-- The text of a string in a table; empty when the reference names none. -/
def moduleText (strings : Array UInt8) (r : StringRef) : String :=
  match moduleString? strings r with
  | some bytes => Text.ofUtf8 bytes
  | none => ""

/-- What is found by name, and the global defs by address. -/
structure Lookups where
  functions : Index String
  globals : Index String
  fields : Index String
  addresses : Index UInt16
deriving Repr

def Lookups.build (strings : Array UInt8) (functions : Array FunctionRecord)
    (globalDefs fieldDefs : Array Def) : Lookups where
  functions := .ofNames (functions.toList.map (moduleText strings ·.name))
  globals := .ofNames (globalDefs.toList.map (moduleText strings ·.name))
  fields := .ofNames (fieldDefs.toList.map (moduleText strings ·.name))
  addresses := .ofEntries (globalDefs.toList.map (·.offset)).zipIdx

structure Module where
  header : Header
  /-- Checksum of the whole image. -/
  checksum : UInt16
  /-- Bytes of the image. -/
  size : Nat
  statements : Array Statement
  functions : Array FunctionRecord
  globalDefs : Array Def
  fieldDefs : Array Def
  strings : Array UInt8
  /-- Globals as they are at the start. -/
  globals : Array Word
  layout : Layout
  bindings : Bindings
  lookups : Lookups
  lookups_eq : lookups = .build strings functions globalDefs fieldDefs
deriving Repr

namespace Module

def version (m : Module) : UInt32 := m.header.version

def string? (m : Module) (r : StringRef) : Option Bytes := moduleString? m.strings r

def text (m : Module) (r : StringRef) : String := moduleText m.strings r

def function? (m : Module) (number : Nat) : Option FunctionRecord := m.functions[number]?

def functionName (m : Module) (number : Nat) : String :=
  match m.function? number with
  | some f => m.text f.name
  | none => ""

def functionFile (m : Module) (number : Nat) : String :=
  match m.function? number with
  | some f => m.text f.file
  | none => ""

def findFunction? (m : Module) (name : String) : Option Nat := m.lookups.functions.lookup name

def findGlobal? (m : Module) (name : String) : Option Def :=
  (m.lookups.globals.lookup name).bind (m.globalDefs[·]?)

def findField? (m : Module) (name : String) : Option Def :=
  (m.lookups.fields.lookup name).bind (m.fieldDefs[·]?)

/-- The first global def at an address. -/
def globalAt? (m : Module) (address : UInt16) : Option Def :=
  (m.lookups.addresses.lookup address).bind (m.globalDefs[·]?)

/-- The declared type of the global at an address. -/
def globalType? (m : Module) (address : UInt16) : Option ValueType :=
  (m.globalAt? address).bind (·.type?)

/-- The function whose body holds a statement: the last of those with the nearest entry. -/
def functionAt? (m : Module) (statement : Nat) : Option Nat :=
  let nearer (best : Option (Nat × Nat)) (number : Nat) : Option (Nat × Nat) :=
    match (m.function? number).bind (·.firstStatement?) with
    | some entry =>
      if statement < entry then best
      else match best with
        | some (_, other) => if entry < other then best else some (number, entry)
        | none => some (number, entry)
    | none => best
  ((List.range m.functions.size).foldl nearer none).map (·.1)

/-- The statements of a function, from its entry to the next entry of any function. -/
def functionRange (m : Module) (number : Nat) : Nat × Nat :=
  match (m.function? number).bind (·.firstStatement?) with
  | none => (0, 0)
  | some start =>
    let later := m.functions.toList.filterMap fun f => f.firstStatement?.filter (start < ·)
    (start, min (later.min?.getD m.statements.size) m.statements.size)

def bind (m : Module) : Module :=
  let global (name : String) := (m.findGlobal? name).map (·.offset.toNat)
  let field (name : String) := (m.findField? name).map (·.offset.toNat)
  { m with
    bindings :=
      { self := global "self", time := global "time", nextThink := field "nextthink",
        frame := field "frame", think := field "think" } }

end Module
end GameBytecode
