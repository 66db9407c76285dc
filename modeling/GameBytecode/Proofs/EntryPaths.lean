import GameBytecode.Proofs.BuilderHistory
import GameBytecode.Proofs.FaultOrigin

/-!
The two ways into a function. A host executes it, or a statement of a run calls it; both look up what
the function number stands for, each in its own way. On what they agree, and where they do not.
-/
namespace GameBytecode

/-- What comes of asking for a function. -/
inductive Verdict where
  | refused (kind : Fault)
  | invokes (body : HostProgram) (s : Session)
  | enters (first : Int) (s : Session)

/-- The verdict once it is known what a function number stands for. -/
def Session.dispatch (m : Module) (number : Nat) (s : Session) : Except Fault Callee → Verdict
  | .error e => .refused e
  | .ok (.builtin n) =>
    match s.builtin? n.toNat with
    | some body => .invokes body s
    | none => .refused (.badBuiltin n.toNat)
  | .ok .bytecode =>
    match s.machine.enter m number with
    | (.error e, _) => .refused e
    | (.ok first, v) => .enters first { s with machine := v }

theorem Machine.resolve_ok {m : Module} {number : Nat} {f : FunctionRecord}
    (h : resolve m number = .ok f) : number ≠ 0 ∧ m.function? number = some f := by
  simp only [resolve] at h
  split at h
  · cases h
  · rename_i nonzero
    split at h
    · rename_i found
      cases h
      exact ⟨nonzero, found⟩
    · cases h

theorem Machine.resolve_of_function? {m : Module} {number : Nat} {f : FunctionRecord}
    (nonzero : number ≠ 0) (found : m.function? number = some f) : resolve m number = .ok f := by
  simp only [resolve, if_neg nonzero, found]

namespace Module
variable {m : Module} {number : Nat}

/-- The number of a function that is neither a builtin nor has a statement to start at. -/
def Blank (m : Module) (number : Nat) : Prop :=
  number ≠ 0 ∧ ∃ f, m.function? number = some f ∧ f.entry = 0

theorem Blank.resolve (h : m.Blank number) :
    ∃ f, Machine.resolve m number = .ok f ∧ f.entry = 0 ∧ f.builtin? = none := by
  obtain ⟨nonzero, f, found, entry⟩ := h
  refine ⟨f, Machine.resolve_of_function? nonzero found, entry, ?_⟩
  simp only [FunctionRecord.builtin?, FunctionRecord.isBuiltin, entry]
  rfl

theorem Blank.executable (h : m.Blank number) : m.executable number = .ok .bytecode := by
  obtain ⟨f, found, -, bytecode⟩ := h.resolve
  simp only [Module.executable, found, Except.map, bytecode]

theorem callee_eq {f : FunctionRecord} (h : Machine.resolve m number = .ok f) :
    m.callee number = match f.builtin? with
      | some n => .ok (.builtin n)
      | none => if f.entry = 0 then .error (.badBuiltin 0) else .ok .bytecode := by
  simp only [Module.callee, h]
  rfl

theorem Blank.callee (h : m.Blank number) : m.callee number = .error (.badBuiltin 0) := by
  obtain ⟨f, found, entry, bytecode⟩ := h.resolve
  simp only [callee_eq found, bytecode, if_pos entry]

/-- What a call calls is what a host executes, of every function that is not blank. -/
theorem callee_of_not_blank (h : ¬ m.Blank number) : m.callee number = m.executable number := by
  cases hr : Machine.resolve m number with
  | error e => simp only [Module.callee, Module.executable, hr, Except.map, Bind.bind, Except.bind]
  | ok f =>
    simp only [callee_eq hr, Module.executable, hr, Except.map]
    cases f.builtin? with
    | some n => rfl
    | none =>
      obtain ⟨nonzero, found⟩ := Machine.resolve_ok hr
      rw [if_neg fun entry => h ⟨nonzero, f, found, entry⟩]

theorem Blank.enter (h : m.Blank number) (v : Machine) :
    v.enter m number = (.error (.invalidStatement 0), v) := by
  obtain ⟨-, f, found, entry⟩ := h
  have refused : v.admission m number = .error (.invalidStatement 0) := by
    simp only [Machine.admission, found, entry]
    rfl
  simp only [Machine.enter, refused]

end Module

namespace Machine
variable {v : Machine} {frame : RunFrame} {executed : Nat} {next : Int} {number : Nat} {w : Machine}

/-- The statement that a run fetches next calls a function; the machine that calls it has counted the
statement and taken its arguments. -/
structure Calls (v : Machine) (frame : RunFrame) (executed : Nat) (next : Int) (number : Nat)
    (w : Machine) : Prop where
  within : ¬ frame.budget.any (· ≤ executed)
  placed : ¬ next < 0
  called : ∃ st function argc, frame.program.statements[next.toNat]? = some st ∧
    (step v.settings frame.program next.toNat st v.store).1 = .ok (.call function argc) ∧
    number = function.toNat ∧ w = { v.record frame.program next.toNat with argc }

theorem Calls.turn_eq (h : v.Calls frame executed next number w) :
    v.turn frame executed next = w.call frame.program next.toNat number := by
  obtain ⟨within, placed, st, function, argc, fetched, calls, rfl, rfl⟩ := h
  rcases turn_cases frame executed next v with ⟨kind, -, ⟨-, reached⟩ | ⟨-, outside⟩⟩ |
    ⟨st', result, store, fetched', stepped, ht⟩
  · exact absurd reached within
  · have inside := (Array.getElem?_eq_some_iff.mp fetched).1
    omega
  · cases fetched.symm.trans fetched'
    rw [stepped] at calls
    cases calls
    cases step_call stepped
    have counted : v.ran frame.program next.toNat v.store = v.record frame.program next.toNat :=
      congrArg (v.record frame.program next.toNat).setStore (record_store ..).symm
    rw [ht, counted]
    rfl

end Machine

namespace Configuration
variable {m : Module} {number : Nat} {s : Session}

/-- The verdict that a configuration stands at, if it does at one. -/
def verdict (c : Configuration) : Option Verdict :=
  match c.task with
  | .fetch _ _ first => some (.enters first c.session)
  | .perform body => some (.invokes body c.session)
  | task => task.fault?.map .refused

/-- Executes a function of a module in a run that has been begun. -/
def invoke (m : Module) (number : Nat) (s : Session) (waiting : List Waiting) : Configuration :=
  match m.executable number with
  | .error e => settle (.error (s.machine.fault m e)) s waiting
  | .ok (.builtin n) =>
    match s.builtin? n.toNat with
    | some body => ⟨s, .perform body, .execution m :: waiting⟩
    | none => settle (.error (s.machine.fault m (.badBuiltin n.toNat))) s waiting
  | .ok .bytecode =>
    match s.machine.enter m number with
    | (.error e, v) => crash m s.machine.depth e { s with machine := v } waiting
    | (.ok first, v) =>
      ⟨{ s with machine := v }, .fetch (.opening m s.machine.depth v.settings) 0 first, waiting⟩

theorem execute_eq_invoke (number : Nat) (s : Session) (waiting : List Waiting) :
    execute number s waiting =
      invoke s.machine.program number (s.onMachine Machine.beginRun) waiting := rfl

/-- Goes on with a run after a turn. -/
def proceed (frame : RunFrame) (executed : Nat) (s : Session) (waiting : List Waiting) :
    Turn × Machine → Configuration
  | (.go next, v) => ⟨{ s with machine := v }, .fetch frame (executed + 1) next, waiting⟩
  | (.builtin n next, v) =>
    let s := { s with machine := v }
    match s.builtin? n.toNat with
    | some body => ⟨s, .perform body, .run frame (executed + 1) next :: waiting⟩
    | none => crash frame.program frame.exitDepth (.badBuiltin n.toNat) s waiting
  | (.returned, v) =>
    ⟨{ s with machine := v }, .unwind frame.program frame.exitDepth (.ok ()), waiting⟩
  | (.fault kind, v) => crash frame.program frame.exitDepth kind { s with machine := v } waiting

theorem fetch_eq_proceed (frame : RunFrame) (executed : Nat) (next : Int) (s : Session)
    (waiting : List Waiting) :
    fetch frame executed next s waiting =
      proceed frame executed s waiting (s.machine.turn frame executed next) := rfl

theorem invoke_verdict (m : Module) (number : Nat) (s : Session) (waiting : List Waiting) :
    (invoke m number s waiting).verdict = some (s.dispatch m number (m.executable number)) := by
  unfold invoke Session.dispatch
  cases m.executable number with
  | error e => rfl
  | ok callee =>
    cases callee with
    | builtin n =>
      dsimp only
      cases s.builtin? n.toNat <;> rfl
    | bytecode =>
      dsimp only
      cases s.machine.enter m number with
      | mk result v => cases result <;> rfl

theorem call_verdict (m : Module) (index number : Nat) (frame : RunFrame) (executed : Nat)
    (s : Session) (waiting : List Waiting) :
    (proceed frame executed s waiting (s.machine.call m index number)).verdict =
      some (s.dispatch m number (m.callee number)) := by
  unfold Machine.call Session.dispatch
  cases m.callee number with
  | error e => rfl
  | ok callee =>
    cases callee with
    | builtin n =>
      simp only [proceed]
      cases s.builtin? n.toNat <;> rfl
    | bytecode =>
      dsimp only
      cases s.machine.enter m number with
      | mk result v => cases result <;> rfl

/-- The verdicts on a function of a module in a session: of a host that executes it, by itself and as
a step, and of a statement that calls it, by itself and as a step. -/
structure Entries (m : Module) (number : Nat) (s : Session) (host called : Verdict) : Prop where
  invoke : ∀ waiting, (invoke m number s waiting).verdict = some host
  call : ∀ frame executed index waiting,
    (proceed frame executed s waiting (s.machine.call m index number)).verdict = some called
  execute : ∀ u waiting, u.onMachine Machine.beginRun = s → u.machine.program = m →
    (execute number u waiting).verdict = some host
  fetch : ∀ v frame executed next waiting, v.Calls frame executed next number s.machine →
    frame.program = m →
      (fetch frame executed next { s with machine := v } waiting).verdict = some called

theorem entries (m : Module) (number : Nat) (s : Session) :
    Entries m number s (s.dispatch m number (m.executable number))
      (s.dispatch m number (m.callee number)) where
  invoke := invoke_verdict m number s
  call frame executed index waiting := call_verdict m index number frame executed s waiting
  execute u waiting begun loaded := by
    rw [execute_eq_invoke, begun, loaded]
    exact invoke_verdict m number s waiting
  fetch v frame executed next waiting calls loaded := by
    rw [fetch_eq_proceed]
    have turned : (v.turn frame executed next) = s.machine.call m next.toNat number := by
      rw [calls.turn_eq, loaded]
    exact (congrArg (fun turn => (proceed frame executed s waiting turn).verdict) turned).trans
      (call_verdict m next.toNat number frame executed s waiting)

/-- Of a blank function the host is told that its first statement does not exist, and the calling
function that its builtin does not. -/
theorem dispatch_blank (s : Session) (blank : m.Blank number) :
    s.dispatch m number (m.executable number) = .refused (.invalidStatement 0) ∧
      s.dispatch m number (m.callee number) = .refused (.badBuiltin 0) := by
  rw [blank.executable, blank.callee]
  simp only [Session.dispatch, blank.enter, and_self]

/-- A host that executes a function and a statement that calls it come to the same verdict, with the
same session after it, if and only if the function is not blank. -/
theorem entry_verdicts (m : Module) (number : Nat) (s : Session) :
    ∃ host called, Entries m number s host called ∧ (host = called ↔ ¬ m.Blank number) ∧
      (m.Blank number → host = .refused (.invalidStatement 0) ∧ called = .refused (.badBuiltin 0)) := by
  refine ⟨_, _, entries m number s, ⟨fun same blank => ?_, fun h => ?_⟩, dispatch_blank s⟩
  · obtain ⟨host, called⟩ := dispatch_blank s blank
    rw [host, called] at same
    cases same
  · rw [Module.callee_of_not_blank h]

end Configuration

/-- A module with a function that has neither a builtin nor statements, and one that calls it. -/
def hollowBuilder : Builder := .built
  [.addFunction "f" "" 0 28 [] 0, .addGlobal "g" (.function 1),
    .pushStatements [Session.bareCall 28, ⟨Opcode.done.code, 0, 0, 0⟩],
    .addFunction "main" "" 1 28 [] 0]

theorem hollow_loads : (Machine.load hollowBuilder.bytes 0 0 {}).toOption.isSome := by decide +kernel

def hollow : Machine := (Machine.load hollowBuilder.bytes 0 0 {}).toOption.get hollow_loads

def hollowRun : RunFrame := .opening hollow.program 0 {}

theorem hollow_blank : hollowRun.program.Blank 1 := by
  have hollowed : (hollowRun.program.function? 1).any (·.entry = 0) = true := by decide +kernel
  obtain ⟨f, found, entry⟩ := (Option.any_eq_true _ _).mp hollowed
  exact ⟨Nat.one_ne_zero, f, found, of_decide_eq_true entry⟩

def hollowEntered : Machine := (hollow.beginRun.enter hollow.program 2).2

def hollowCaller : Machine := { hollowEntered.record hollowRun.program 1 with argc := 0 }

theorem hollow_calls : hollowEntered.Calls hollowRun 0 1 1 hollowCaller := by
  have within : ¬ hollowRun.budget.any (· ≤ 0) := by decide +kernel
  have fetched : hollowRun.program.statements[1]? = some (Session.bareCall 28) := by decide +kernel
  have called : (step hollowEntered.settings hollowRun.program 1 (Session.bareCall 28)
      hollowEntered.store).1.toOption = some (.call 1 0) := by decide +kernel
  exact ⟨within, by decide, Session.bareCall 28, 1, 0, fetched, ok_of_toOption called, by decide, rfl⟩

namespace Configuration

/-- The host that executes the first function, and the statement that calls it, are refused for
different reasons in the same session. -/
theorem hollow_refused_apart :
    hollowRun.program.Blank 1 ∧ hollowEntered.Calls hollowRun 0 1 1 hollowCaller ∧
      (invoke hollowRun.program 1 ⟨hollowCaller, []⟩ []).verdict ≠
        (fetch hollowRun 0 1 ⟨hollowEntered, []⟩ []).verdict := by
  refine ⟨hollow_blank, hollow_calls, ?_⟩
  obtain ⟨host, called⟩ := dispatch_blank ⟨hollowCaller, []⟩ hollow_blank
  have verdicts := entries hollowRun.program 1 ⟨hollowCaller, []⟩
  have refused := verdicts.fetch hollowEntered hollowRun 0 1 [] hollow_calls rfl
  rw [called] at refused
  rw [verdicts.invoke, host, refused]
  rintro ⟨⟩

/-- Of the second function both come to one verdict. -/
theorem hollow_main_agreed : ¬ hollowRun.program.Blank 2 ∧
    ∃ verdict, Entries hollowRun.program 2 ⟨hollowCaller, []⟩ verdict verdict := by
  have starts : (hollowRun.program.function? 2).all (·.entry ≠ 0) = true := by decide +kernel
  have solid : ¬ hollowRun.program.Blank 2 := by
    rintro ⟨-, f, found, entry⟩
    rw [found] at starts
    exact of_decide_eq_true starts entry
  obtain ⟨host, called, verdicts, agreed, -⟩ :=
    entry_verdicts hollowRun.program 2 ⟨hollowCaller, []⟩
  rw [← agreed.mpr solid] at verdicts
  exact ⟨solid, host, verdicts⟩

end Configuration
end GameBytecode
