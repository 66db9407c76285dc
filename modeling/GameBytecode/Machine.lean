import GameBytecode.Image
import GameBytecode.Listing
import GameBytecode.Profile
import GameBytecode.Step
import GameBytecode.Trace
import GameBytecode.Validation

/-!
A machine: a module with the memory, strings and stacks it runs on. Functions are entered by
saving the words of their locals and are left by putting them back, so that a function can be
entered again while it runs.
-/
namespace GameBytecode

/-- Where a machine stands in its calls. Outside any function, function 0 is current. -/
structure CallState where
  calls : CallStack
  saved : SavedLocals
  statement : Nat
  function : Nat
deriving DecidableEq, Repr

/-- Pushes a frame for the present place and saves the locals of the function to be entered. -/
def CallState.save (c : CallState) (number : Nat) (locals : List Word) : CallState :=
  { c with
    calls := c.calls.add ⟨c.statement, c.function⟩
    saved := { c.saved with words := c.saved.words ++ locals.toArray }
    function := number }

structure Machine where
  settings : Settings
  /-- Entity records and bytes of heap that a module gets. -/
  capacity : Nat
  heapBytes : Nat
  program : Module
  store : Store
  control : CallState
  /-- Arguments of the most recent call. -/
  argc : Nat
  /-- Statements executed by each function. -/
  profile : Array Nat
  trace : TraceBuffer
  tracing : Bool
  /-- Lines that builtins have written, in order. -/
  console : Array String

/-- A fault with the place where it arose. -/
structure RuntimeFault where
  kind : Fault
  function : String
  file : String
  statement : Nat
  /-- The statement that ran. -/
  listing : Option String
  /-- The calls in progress, innermost first. -/
  backtrace : List String
deriving DecidableEq, Repr

namespace RuntimeFault

/-- A fault outside any function. -/
def detached (kind : Fault) : RuntimeFault := ⟨kind, "<none>", "<none>", 0, none, []⟩

def message (f : RuntimeFault) : String :=
  f.kind.message ++ " in " ++ f.function ++ " (" ++ f.file ++ ") at statement " ++
    toString f.statement

/-- The message with the statement and the calls, a line each. -/
def dump (f : RuntimeFault) : String :=
  let listing := match f.listing with
    | some line => "    " ++ line ++ "\n"
    | none => ""
  f.message ++ "\n" ++ listing ++ String.join (f.backtrace.map fun line => "  " ++ line ++ "\n")

end RuntimeFault

namespace Machine

/-- Word written over the locals of a function that is entered. -/
def deadbeef : Word := 0xdeadbeef

/-- The memory of a module at the start. -/
def initialMemory (m : Module) : Except LoadError Memory :=
  (Memory.allocate m.layout.total).map fun memory =>
    ⟨Memory.setWords memory.words 0 (m.globals.toList.take m.layout.globals)⟩

/-- Reads an image, and checks it if bounds are checked. -/
def readProgram (settings : Settings) (image : Text.Bytes) (capacity heapBytes : Nat) :
    Except LoadError Module := do
  let m ← Image.load image capacity heapBytes
  if settings.boundsCheck then
    match Validation.check m with
    | .ok () => return m
    | .error e => throw (.validation e)
  else return m

def idle (settings : Settings) : CallState :=
  ⟨.empty settings.maxStackDepth, .empty settings.localsStackSize, 0, 0⟩

/-- A machine for an image. -/
def load (image : Text.Bytes) (capacity heapBytes : Nat) (settings : Settings) :
    Except LoadError Machine := do
  let program ← readProgram settings image capacity heapBytes
  let memory ← initialMemory program
  return {
    settings, capacity, heapBytes, program
    store := ⟨memory, .ofTable program.strings⟩
    control := idle settings
    argc := 0
    profile := Array.replicate program.functions.size 0
    trace := .empty TraceBuffer.defaultCapacity
    tracing := false
    console := #[] }

/-- Puts another module in place of the present one and starts afresh with it. A module that does
not load changes nothing. -/
def reload (v : Machine) (image : Text.Bytes) : Except LoadError Machine :=
  (load image v.capacity v.heapBytes v.settings).map ({ · with console := v.console })

def depth (v : Machine) : Nat := v.control.calls.depth

/-- Runs an action on the store. -/
def act {α : Type} (a : Action α) (v : Machine) : Except Fault α × Machine :=
  let store := v.store
  let v := { v with store := ⟨⟨#[]⟩, .ofTable #[]⟩ }
  let (result, store) := a store
  (result, { v with store })

/-- A fault at the place where the machine stands. -/
def fault (v : Machine) (m : Module) (kind : Fault) : RuntimeFault :=
  let function := v.control.function
  let statement := v.control.statement
  { kind
    function := if function = 0 then "<none>" else m.functionName function
    file := if function = 0 then "<none>" else m.functionFile function
    statement
    listing := if function = 0 then none else some (Listing.line m v.store.memory statement)
    backtrace := Listing.backtrace m v.control.calls function statement }

/-- The function of a number, which is not 0. -/
def resolve (m : Module) (number : Nat) : Except Fault FunctionRecord :=
  if number = 0 then .error .nullFunction
  else match m.function? number with
    | some f => .ok f
    | none => .error (.badFunction number)

/-- Whether a function can be entered: it has a first statement, and there is room for a frame and
for its locals. -/
def admission (v : Machine) (m : Module) (number : Nat) : Except Fault FunctionRecord := do
  let some f := m.function? number | throw (.badFunction number)
  if f.entry ≤ 0 ∨ m.statements.size ≤ f.entry.toInt.toNat then
    throw (.invalidStatement f.entry.toInt)
  unless v.control.calls.hasRoom do throw (.stackOverflow v.control.calls.limit)
  unless v.control.saved.hasRoom f.locals.toNat do
    throw (v.control.saved.overflow f.locals.toNat)
  let _ ← v.store.memory.resolve f.start.toNat f.locals.toNat
  return f

/-- Copies arguments of given widths to consecutive words; the answer is the word after them. -/
def passFixed (target : Int) (argument : Nat) : List Nat → Action Int
  | [] => return target
  | width :: rest => do
    Action.copy (Address.argument argument) target width
    passFixed (target + width) (argument + 1) rest

/-- Gives a variadic function the number of further arguments, their address, and all slots that are
left. -/
def passFurther (f : FunctionRecord) (argc : Nat) (target : Int) : Action Unit := do
  let further := argc - f.fixedCount
  let address := target + 2
  Action.putWord target (UInt32.ofNat further)
  Action.putWord (target + 1) (Word.ofSigned address)
  Action.copy (Address.argument f.fixedCount) address
    ((maxParameters - f.fixedCount) * Address.argumentWords)

/-- Fills the parameters of a function from the argument slots. -/
def passArguments (poison : Bool) (f : FunctionRecord) (argc : Nat) : Action Unit := do
  if poison then Action.put f.start.toNat (List.replicate f.locals.toNat deadbeef)
  let target ← passFixed f.start.toNat 0 f.fixedSizes
  if f.isVariadic then passFurther f argc target

/-- Enters a function; the answer is its first statement. Admission is decided before anything is
changed. The arguments are passed after that, and what has been changed by then stays when they do not
fit. -/
def enter (v : Machine) (m : Module) (number : Nat) : Except Fault Nat × Machine :=
  match v.admission m number with
  | .error e => (.error e, v)
  | .ok f =>
    let words := v.store.memory.words
    let start := f.start.toNat
    let locals := (words.extract start (start + f.locals.toNat)).toList
    let v := { v with control := v.control.save number locals }
    let (passed, v) := v.act (passArguments v.settings.deadbeefLocals f v.argc)
    (passed.map fun _ => f.entry.toInt.toNat, v)

/-- Puts the saved locals of the current function back. -/
def restoreLocals (v : Machine) (m : Module) : Except Fault Unit × Machine :=
  match m.function? v.control.function with
  | none => (.ok (), v)
  | some f =>
    if v.control.function = 0 then (.ok (), v)
    else match v.control.saved.top? f.locals.toNat with
      | .error e => (.error e, v)
      | .ok words =>
        let (written, v) := v.act (Action.put f.start.toNat words)
        match written with
        | .error e => (.error e, v)
        | .ok () =>
          (.ok (), { v with control.saved := v.control.saved.drop f.locals.toNat })

/-- Leaves the current function. The frame is gone even when the locals cannot be put back. -/
def leave (v : Machine) (m : Module) : Except Fault Unit × Machine :=
  match v.control.calls.pop with
  | .error e => (.error e, v)
  | .ok (frame, calls) =>
    let (restored, v) := { v with control.calls := calls }.restoreLocals m
    (restored,
      { v with control.statement := frame.statement, control.function := frame.function })

/-- Leaves functions until the calls are as deep as they were. -/
def unwind (v : Machine) (m : Module) (depth : Nat) : Machine :=
  Nat.repeat (fun v => (v.leave m).2) (v.depth - depth) v

def beginRun (v : Machine) : Machine := { v with store.strings := v.store.strings.beginRun }

def endRun (v : Machine) : Machine := { v with store.strings := v.store.strings.endRun }

end Machine
end GameBytecode
