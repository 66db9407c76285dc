import GameBytecode.Assembly.Notation
import GameBytecode.CommandLine.Builtins
import GameBytecode.CommandLine.Failure
import GameBytecode.CommandLine.Report
import GameBytecode.Run
import GameBytecode.Settings.Notation

/-!
Performing commands. A command reads its files, prints what it finds and reports events; a failure
ends it, is reported, and gives an exit code other than 0.
-/
namespace GameBytecode.CommandLine
open Text (Bytes)

variable {m : Type → Type} [Monad m]

/-- Work that may fail. -/
abbrev Work (m : Type → Type) (α : Type) := ExceptT Failure m α

namespace Work

def ofExcept {ε α : Type} (failure : ε → Failure) : Except ε α → Work m α
  | .ok a => return a
  | .error e => throw (failure e)

def report (t : Terminal m) (e : Event) : Work m Unit := do
  ofExcept .file (← t.report e)

def readModule (t : Terminal m) (path : String) : Work m Bytes := do
  ofExcept (fun e => if e.isAbsence then .missingModule path else .file e) (← t.read path)

def info (t : Terminal m) (json : Bool) (path : String) (sizes : Sizes) : Work m Unit := do
  let image ← readModule t path
  let program ← ofExcept .load (Image.load image sizes.entities sizes.heapBytes)
  t.print (Report.moduleInfo json program (Digest.sha256 image))

def check (t : Terminal m) (path : String) : Work m Unit := do
  let image ← readModule t path
  let program ← ofExcept .load (Image.load image 1 0)
  ofExcept .validation (Validation.check program)
  t.print (Report.line ("ok: " ++ toString program.statements.size ++ " statements validated"))

def disassemble (t : Terminal m) (path : String) : Option String → Work m Unit
  | none => do
    let image ← readModule t path
    let program ← ofExcept .load (Image.load image 1 0)
    t.print (← ofExcept .load (Listing.dump program))
  | some name => do
    let image ← readModule t path
    let v ← ofExcept .load (Machine.load image 1 0 {})
    let some number := v.program.findFunction? name | throw (.missingFunction name)
    t.print (Report.lines (Listing.function v.program v.store.memory number))

/-- The settings of a file or of the environment, with the checks that the plan asks for. -/
def settings (t : Terminal m) (environment : Settings) (plan : RunPlan) : Work m Settings := do
  let base ← match plan.config with
    | none => pure environment
    | some path =>
      let text ← ofExcept (.unreadableSettings path) (← t.readText path)
      match Settings.parse? text with
      | some s => pure s
      | none => throw (.invalidSettings path)
  return { base with
    boundsCheck := base.boundsCheck || plan.boundsCheck
    faultChecks := base.faultChecks || plan.faultChecks
    noExecLimit := base.noExecLimit || plan.noExecLimit }

/-- A bound on the work of a run that no run comes near to. -/
def patience : Nat := 0x4000000000000000

def run (t : Terminal m) (environment : Settings) (json : Bool) (path : String) (plan : RunPlan) :
    Work m Unit := do
  let image ← readModule t path
  let settings ← settings t environment plan
  let v ← ofExcept .load (Machine.load image plan.sizes.entities plan.sizes.heapBytes settings)
  let start : Session := ⟨{ v with tracing := plan.trace }, Builtins.all⟩
  let (ending, s) := start.executeByName patience plan.function
  let v := s.machine
  t.print (String.join v.console.toList)
  if let .failed e := ending then
    if e.kind.isFatal then throw (.aborted e.kind)
  if plan.trace then t.print (Report.lines v.trace.toList)
  match ending with
  | .failed e => throw (.fault e)
  | .exhausted => throw .unfinished
  | .finished =>
    let value ← ofExcept .machine v.resultWord
    t.print (Report.result json plan.function value)
    if plan.profile then t.print (Report.profile json (v.profileReport 10))

def assemble (t : Terminal m) (path output : String) : Work m Unit := do
  let text ← ofExcept .unreadableSource (← t.readText path)
  let some source := Assembly.parse? text | throw .invalidSource
  if source.functions.all (·.builtin.isSome) then
    report t ⟨.warn, "assemble", path ++ " defines no bytecode functions", none⟩
  let image := (← ofExcept .assembly (Assembly.assemble source)).bytes
  ofExcept .file (← t.write output image)
  report t ⟨.info, "assemble",
    "wrote " ++ toString image.length ++ " bytes to " ++ output, none⟩

def command (t : Terminal m) (environment : Settings) (json : Bool) : Command → Work m Unit
  | .info path sizes => info t json path sizes
  | .check path => check t path
  | .disassemble path function => disassemble t path function
  | .run path plan => run t environment json path plan
  | .assemble source output => assemble t source output

end Work

/-- Reports a failure, a fault with its whole text. Nothing is left to report the end of the process. -/
def explain (t : Terminal m) (f : Failure) : m Unit := do
  if let .aborted e := f then return ← t.note (Report.line e.message)
  if let .fault e := f then t.note e.dump
  match ← t.report f.event with
  | .ok () => return ()
  | .error _ => t.note (Report.line ("Error: " ++ f.message))

/-- Performs a command; the answer is the exit code. -/
def perform (t : Terminal m) (environment : Settings) (options : Options) (command : Command) :
    m UInt32 := do
  match ← ExceptT.run (Work.command t environment options.json command) with
  | .ok () => return 0
  | .error f =>
    explain t f
    return f.exitCode

/-- Does what an argument list asks for. -/
def respond (terminal : Options → Terminal m) (environment : Settings) (arguments : List String) :
    m UInt32 := do
  match read arguments with
  | .ok (options, command) => perform (terminal options) environment options command
  | .error .help =>
    (terminal {}).print Report.usage
    return 0
  | .error .version =>
    (terminal {}).print Report.version
    return 0
  | .error .usage =>
    (terminal {}).note Report.usage
    return 2

end GameBytecode.CommandLine
