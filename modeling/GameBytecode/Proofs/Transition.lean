import GameBytecode.Run

/-!
Runs taken one step at a time. A configuration holds a session, what is done on it next, and who
waits for the outcome; one step is a statement, a request of a host program or a function left.
-/
namespace GameBytecode

/-- What a configuration does next. -/
inductive Task where
  | execute (number : Nat)
  | fetch (frame : RunFrame) (executed : Nat) (next : Int)
  /-- Leave functions until the calls are as deep as they were before the run. -/
  | unwind (m : Module) (exitDepth : Nat) (outcome : Except RuntimeFault Unit)
  /-- Tell the outcome of an execution that is over. -/
  | answer (outcome : Except RuntimeFault Unit)
  | perform (p : HostProgram)

/-- Who waits for the outcome. -/
inductive Waiting where
  /-- A host program that asked for an execution. -/
  | program (k : Except RuntimeFault Unit → HostProgram)
  /-- A run that called a builtin. -/
  | run (frame : RunFrame) (executed : Nat) (next : Int)
  /-- An execution of a builtin. -/
  | execution (m : Module)

structure Configuration where
  session : Session
  task : Task
  waiting : List Waiting

namespace Configuration

abbrev machine (c : Configuration) : Machine := c.session.machine

def depth (c : Configuration) : Nat := c.machine.depth

/-- The configuration that starts executing a function for a host. -/
def start (number : Nat) (s : Session) : Configuration := ⟨s, .execute number, []⟩

/-- Ends an execution. -/
def settle (outcome : Except RuntimeFault Unit) (s : Session) (waiting : List Waiting) :
    Configuration :=
  ⟨s.onMachine Machine.endRun, .answer outcome, waiting⟩

/-- Ends a run with a fault, located where the machine stands. -/
def crash (m : Module) (exitDepth : Nat) (kind : Fault) (s : Session) (waiting : List Waiting) :
    Configuration :=
  ⟨s, .unwind m exitDepth (.error (s.machine.fault m kind)), waiting⟩

/-- Starts an execution. -/
def execute (number : Nat) (s : Session) (waiting : List Waiting) : Configuration :=
  let m := s.machine.program
  let s := s.onMachine Machine.beginRun
  match m.executable number with
  | .error e => settle (.error (s.machine.fault m e)) s waiting
  | .ok (.builtin n) =>
    match s.builtin? n.toNat with
    | some body => ⟨s, .perform body, .execution m :: waiting⟩
    | none => settle (.error (s.machine.fault m (.badBuiltin n.toNat))) s waiting
  | .ok .bytecode =>
    match s.machine.enter m number with
    | (.error e, v) => crash m s.machine.depth e { s with machine := v } waiting
    | (.ok first, v) =>
      ⟨{ s with machine := v }, .fetch (.opening m s.machine.depth v.settings) 0 first, waiting⟩

/-- Runs a statement. -/
def fetch (frame : RunFrame) (executed : Nat) (next : Int) (s : Session)
    (waiting : List Waiting) : Configuration :=
  match s.machine.turn frame executed next with
  | (.go next, v) => ⟨{ s with machine := v }, .fetch frame (executed + 1) next, waiting⟩
  | (.builtin n next, v) =>
    let s := { s with machine := v }
    match s.builtin? n.toNat with
    | some body => ⟨s, .perform body, .run frame (executed + 1) next :: waiting⟩
    | none => crash frame.program frame.exitDepth (.badBuiltin n.toNat) s waiting
  | (.returned, v) =>
    ⟨{ s with machine := v }, .unwind frame.program frame.exitDepth (.ok ()), waiting⟩
  | (.fault kind, v) => crash frame.program frame.exitDepth kind { s with machine := v } waiting

/-- Leaves one function of a run that is over. -/
def unwind (m : Module) (exitDepth : Nat) (outcome : Except RuntimeFault Unit) (s : Session)
    (waiting : List Waiting) : Configuration :=
  if exitDepth < s.machine.depth then
    ⟨s.onMachine fun v => (v.leave m).2, .unwind m exitDepth outcome, waiting⟩
  else settle outcome s waiting

/-- Tells the outcome of a builtin to the run or the execution that waits for it. -/
def conclude (outcome : Except Fault Unit) (s : Session) : List Waiting → Option Configuration
  | .run frame executed next :: waiting => some <|
    match outcome with
    | .ok () => ⟨s, .fetch frame executed next, waiting⟩
    | .error e => crash frame.program frame.exitDepth e s waiting
  | .execution m :: waiting => some (settle (outcome.mapError (s.machine.fault m)) s waiting)
  | _ => none

/-- Answers one request of a host program. -/
def perform (s : Session) (waiting : List Waiting) : HostProgram → Option Configuration
  | .done => conclude (.ok ()) s waiting
  | .fail e => conclude (.error e) s waiting
  | .inspect k => some ⟨s, .perform (k s.machine s.roster), waiting⟩
  | .write address words k =>
    let (result, machine) := s.machine.act (Action.put address words)
    some ⟨{ s with machine }, .perform (k result), waiting⟩
  | .makeString bytes k =>
    let (r, strings) := s.machine.store.strings.push bytes
    some ⟨s.onMachine ({ · with store.strings := strings }), .perform (k r), waiting⟩
  | .clearStrings k =>
    some ⟨s.onMachine fun v => { v with store.strings := v.store.strings.clear }, .perform k,
      waiting⟩
  | .setArgc argc k => some ⟨s.onMachine ({ · with argc }), .perform k, waiting⟩
  | .setTracing on k => some ⟨s.onMachine ({ · with tracing := on }), .perform k, waiting⟩
  | .emit line k =>
    some ⟨s.onMachine fun v => { v with console := v.console.push line }, .perform k, waiting⟩
  | .reload image k =>
    match s.machine.reload image with
    | .ok machine => some ⟨{ s with machine }, .perform (k (.ok ())), waiting⟩
    | .error e => some ⟨s, .perform (k (.error e)), waiting⟩
  | .register number name body k => some ⟨s.register ⟨number, name, body⟩, .perform k, waiting⟩
  | .execute function k => some ⟨s, .execute function, .program k :: waiting⟩

/-- What a host program does when it is told the outcome of an execution. A fatal fault ends it. -/
def resume (k : Except RuntimeFault Unit → HostProgram) : Except RuntimeFault Unit → HostProgram
  | .ok () => k (.ok ())
  | .error e => if e.kind.isFatal then .fail e.kind else k (.error e)

theorem resume_cases (k : Except RuntimeFault Unit → HostProgram) (outcome : Except RuntimeFault Unit) :
    (∃ e, outcome = .error e ∧ e.kind.isFatal ∧ resume k outcome = .fail e.kind) ∨
      resume k outcome = k outcome := by
  cases outcome with
  | ok _ => exact .inr rfl
  | error e =>
    by_cases fatal : e.kind.isFatal
    · exact .inl ⟨e, rfl, fatal, if_pos fatal⟩
    · exact .inr (if_neg fatal)

/-- What holds of the program that is told, and of every one that fails, holds of what is done. -/
theorem resume_keeps {P : HostProgram → Prop} {k : Except RuntimeFault Unit → HostProgram}
    {outcome : Except RuntimeFault Unit} (h : P (k outcome)) (fails : ∀ e, P (.fail e)) :
    P (resume k outcome) := by
  rcases resume_cases k outcome with ⟨e, -, -, ended⟩ | told
  · rw [ended]
    exact fails e.kind
  · rwa [told]

/-- One step; there is none where nobody waits. -/
def next (c : Configuration) : Option Configuration :=
  match c.task with
  | .execute number => some (execute number c.session c.waiting)
  | .fetch frame executed next => some (fetch frame executed next c.session c.waiting)
  | .unwind m exitDepth outcome => some (unwind m exitDepth outcome c.session c.waiting)
  | .answer outcome =>
    match c.waiting with
    | .program k :: waiting => some ⟨c.session, .perform (resume k outcome), waiting⟩
    | _ => none
  | .perform p => perform c.session c.waiting p

/-- The configuration after a number of steps. -/
def after : Nat → Configuration → Option Configuration
  | 0, c => some c
  | n + 1, c => (after n c).bind next

@[simp] theorem after_zero (c : Configuration) : after 0 c = some c := rfl

theorem after_succ (n : Nat) (c : Configuration) : after (n + 1) c = (after n c).bind next := rfl

theorem after_add (c : Configuration) (m n : Nat) : after (m + n) c = (after m c).bind (after n) := by
  induction n with
  | zero => exact (Option.bind_fun_some (after m c)).symm
  | succ n ih => rw [← Nat.add_assoc, after_succ, ih, Option.bind_assoc]; rfl

theorem after_of_next {c c' : Configuration} (h : c.next = some c') (n : Nat) :
    after (n + 1) c = after n c' := by
  rw [Nat.add_comm, after_add, after_succ, after_zero, Option.bind_some, h, Option.bind_some]

theorem after_isSome_of_le {c : Configuration} {m n : Nat} (h : (after n c).isSome) (hle : m ≤ n) :
    (after m c).isSome := by
  obtain ⟨k, rfl⟩ := Nat.exists_eq_add_of_le hle
  rw [after_add] at h
  cases hm : after m c with
  | none => rw [hm] at h; cases h
  | some d => rfl

/-- What every step keeps holds at every step. -/
theorem after_invariant {P : Configuration → Prop} {c : Configuration} (start : P c)
    (step : ∀ d d', P d → d.next = some d' → P d') {n : Nat} {d : Configuration}
    (h : after n c = some d) : P d := by
  induction n generalizing d with
  | zero => cases h; exact start
  | succ n ih =>
    rw [after_succ] at h
    obtain ⟨e, he, hd⟩ := Option.bind_eq_some_iff.mp h
    exact step e d (ih he) hd

end Configuration
end GameBytecode
