import GameBytecode.Host

/-!
Running functions. A run fetches one statement after another until the function it was started for
returns; calls of bytecode functions go on in the same run, and builtins may start runs within it.

Every function here takes a bound on its work. A bound that is too small gives the ending
exhausted and nothing else depends on it.
-/
namespace GameBytecode

/-- What stays the same during one run. -/
structure RunFrame where
  program : Module
  /-- Depth of the calls before the function of the run was entered. -/
  exitDepth : Nat
  /-- Most statements that the run may execute. -/
  budget : Option Nat

/-- The frame of a run that starts at a depth. -/
def RunFrame.opening (m : Module) (exitDepth : Nat) (settings : Settings) : RunFrame :=
  ⟨m, exitDepth, if settings.noExecLimit then none else some settings.runawayBudget⟩

/-- What a function number stands for. -/
inductive Callee where
  | builtin (number : UInt32)
  | bytecode
deriving DecidableEq, Repr

/-- What the host executes under a function number. -/
def Module.executable (m : Module) (number : Nat) : Except Fault Callee :=
  (Machine.resolve m number).map fun f =>
    match f.builtin? with
    | some n => .builtin n
    | none => .bytecode

/-- What a call statement calls; a bytecode function at the null statement counts as a builtin that
does not exist. -/
def Module.callee (m : Module) (number : Nat) : Except Fault Callee := do
  let f ← Machine.resolve m number
  match f.builtin? with
  | some n => return .builtin n
  | none => if f.entry = 0 then throw (.badBuiltin 0) else return .bytecode

/-- Where a run goes from a statement. -/
inductive Turn where
  | go (next : Int)
  /-- To a builtin, and from there to a statement. -/
  | builtin (number : UInt32) (next : Int)
  | returned
  | fault (kind : Fault)
deriving DecidableEq, Repr

namespace Machine

/-- Counts a statement that is about to run, and traces it. -/
def record (m : Module) (index : Nat) (v : Machine) : Machine :=
  let v := { v with
    control.statement := index
    profile := v.profile.modify v.control.function (· + 1) }
  if v.tracing then { v with trace := v.trace.push (Listing.line m v.store.memory index) } else v

/-- Calls a function from the statement at an index. -/
def call (m : Module) (index number : Nat) (v : Machine) : Turn × Machine :=
  match m.callee number with
  | .error e => (.fault e, v)
  | .ok (.builtin n) => (.builtin n (index + 1), v)
  | .ok .bytecode =>
    match v.enter m number with
    | (.error e, v) => (.fault e, v)
    | (.ok first, v) => (.go first, v)

/-- Returns three words to the caller and leaves the function. -/
def returnFrom (m : Module) (value : UInt16) (v : Machine) : Except Fault Unit × Machine :=
  match v.act (Action.copy value.toNat Address.result 3) with
  | (.error e, v) => (.error e, v)
  | (.ok (), v) => v.leave m

/-- Does what a statement at an index asks for. -/
def follow (frame : RunFrame) (index : Nat) (v : Machine) : Control → Turn × Machine
  | .next => (.go (index + 1), v)
  | .jump target => (.go target, v)
  | .call function argc => { v with argc }.call frame.program index function.toNat
  | .ret value =>
    match v.returnFrom frame.program value with
    | (.error e, v) => (.fault e, v)
    | (.ok (), v) =>
      if v.depth = frame.exitDepth then (.returned, v) else (.go (v.control.statement + 1), v)

/-- Fetches and runs one statement, after a number of statements already run. -/
def turn (frame : RunFrame) (executed : Nat) (next : Int) (v : Machine) : Turn × Machine :=
  if frame.budget.any (· ≤ executed) then (.fault (.runawayLoop (frame.budget.getD 0)), v)
  else if next < 0 then (.fault (.invalidStatement next), v)
  else
    match frame.program.statements[next.toNat]? with
    | none => (.fault (.invalidStatement next), v)
    | some st =>
      let v := v.record frame.program next.toNat
      match v.act (step v.settings frame.program next.toNat st) with
      | (.error e, v) => (.fault e, v)
      | (.ok control, v) => v.follow frame next.toNat control

end Machine

namespace Session

def failWith (m : Module) (kind : Fault) (s : Session) : Ending RuntimeFault × Session :=
  (.failed (s.machine.fault m kind), s)

/-- The ending of a builtin as that of the run that called it. -/
def located (m : Module) : Ending Fault × Session → Ending RuntimeFault × Session
  | (.finished, s) => (.finished, s)
  | (.failed e, s) => failWith m e s
  | (.exhausted, s) => (.exhausted, s)

/-- Calls a builtin by number. -/
def callBuiltin (execute : Nat → Session → Ending RuntimeFault × Session) (number : UInt32)
    (s : Session) : Ending Fault × Session :=
  match s.builtin? number.toNat with
  | some body => body.perform execute s
  | none => (.failed (.badBuiltin number.toNat), s)

mutual

/-- Runs a function of the loaded module until it returns. -/
def execute : Nat → Nat → Session → Ending RuntimeFault × Session
  | 0, _, s => (.exhausted, s)
  | fuel + 1, number, s =>
    let m := s.machine.program
    let s := s.onMachine Machine.beginRun
    let (ending, s) :=
      match m.executable number with
      | .error e => failWith m e s
      | .ok (.builtin n) => located m (callBuiltin (execute fuel) n s)
      | .ok .bytecode =>
        let exitDepth := s.machine.depth
        let (ending, s) :=
          match s.machine.enter m number with
          | (.error e, v) => failWith m e { s with machine := v }
          | (.ok first, v) =>
            interpret fuel (.opening m exitDepth v.settings) 0 first { s with machine := v }
        (ending, s.onMachine fun v => v.unwind m exitDepth)
    (ending, s.onMachine Machine.endRun)

/-- Runs statements from one on, after a number of statements already run. -/
def interpret : Nat → RunFrame → Nat → Int → Session → Ending RuntimeFault × Session
  | 0, _, _, _, s => (.exhausted, s)
  | fuel + 1, frame, executed, next, ⟨v, builtins⟩ =>
    match v.turn frame executed next with
    | (.go next, v) => interpret fuel frame (executed + 1) next ⟨v, builtins⟩
    | (.builtin n next, v) =>
      match located frame.program (callBuiltin (execute fuel) n ⟨v, builtins⟩) with
      | (.finished, s) => interpret fuel frame (executed + 1) next s
      | (ending, s) => (ending, s)
    | (.returned, v) => (.finished, ⟨v, builtins⟩)
    | (.fault kind, v) => failWith frame.program kind ⟨v, builtins⟩

end

/-- Runs a function by its name. -/
def executeByName (fuel : Nat) (name : String) (s : Session) : Ending RuntimeFault × Session :=
  match s.machine.program.findFunction? name with
  | some number => execute fuel number s
  | none => (.failed (.detached (.functionNotFound name)), s)

end Session
end GameBytecode
