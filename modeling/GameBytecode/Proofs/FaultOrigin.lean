import GameBytecode.Proofs.StepCases

/-!
Where faults come from: for everything that a step does, the faults that it can raise and what is the
case when it does. A fault that ends an execution was raised by one of its steps, and a fatal one that
was raised ends it, whatever builtins it meets on the way.
-/
namespace GameBytecode

/-- Whether calling a function can raise the fault, but for a function without a first statement. -/
def Fault.OfCall : Fault → Prop
  | .nullFunction | .badFunction _ | .badBuiltin _ | .stackOverflow _ | .localsOverflow ..
  | .invalidGlobal _ => True
  | _ => False

/-- Whether leaving a function can raise the fault. -/
def Fault.OfLeaving : Fault → Prop
  | .stackUnderflow | .localsUnderflow | .invalidGlobal _ => True
  | _ => False

/-- The fault that a run or an execution ends with. -/
def Task.fault? : Task → Option Fault
  | unwind _ _ (.error f) | answer (.error f) => some f.kind
  | _ => none

/-- The fault of entering a function whose first statement is not one of the module. -/
def Module.Misplaced (m : Module) (number : Nat) (e : Fault) : Prop :=
  ∃ f, m.function? number = some f ∧ (f.entry ≤ 0 ∨ m.statements.size ≤ f.entry.toInt.toNat) ∧
    e = .invalidStatement f.entry.toInt

namespace Action

/-- Every fault of the action is an address out of range. -/
def OutOfRange {α : Type} (a : Action α) : Prop :=
  ∀ st e, (a st).1 = .error e → ∃ address, e = .invalidGlobal address

theorem OutOfRange.bind {α β : Type} {a : Action α} {f : α → Action β} (ha : a.OutOfRange)
    (hf : ∀ x, (f x).OutOfRange) : (a >>= f).OutOfRange := by
  intro st e h
  change (ExceptT.bindCont f (a st).1 (a st).2).1 = .error e at h
  cases hr : (a st).1 with
  | ok x =>
    rw [hr] at h
    exact hf x _ e h
  | error e' =>
    rw [hr] at h
    cases h
    exact ha st e hr

theorem OutOfRange.pure {α : Type} (a : α) : (Pure.pure a : Action α).OutOfRange :=
  fun _ _ h => nomatch h

theorem put_outOfRange (address : Int) (ws : List Word) : (put address ws).OutOfRange :=
  fun _ _ h => ⟨address, put_error h⟩

theorem copy_outOfRange (source target : Int) (count : Nat) :
    (copy source target count).OutOfRange :=
  fun _ _ h => copy_error h

end Action

namespace Machine
variable {v : Machine} {m : Module} {e : Fault} {number : Nat}

theorem passFixed_outOfRange (target : Int) (argument : Nat) (sizes : List Nat) :
    (passFixed target argument sizes).OutOfRange := by
  induction sizes generalizing target argument with
  | nil => exact .pure target
  | cons width rest ih => exact .bind (Action.copy_outOfRange _ _ _) fun _ => ih _ _

theorem passFurther_outOfRange (f : FunctionRecord) (argc : Nat) (target : Int) :
    (passFurther f argc target).OutOfRange :=
  .bind (Action.put_outOfRange _ _) fun _ => .bind (Action.put_outOfRange _ _) fun _ =>
    Action.copy_outOfRange _ _ _

theorem passArguments_outOfRange (poison : Bool) (f : FunctionRecord) (argc : Nat) :
    (passArguments poison f argc).OutOfRange := by
  have passed : Action.OutOfRange (do
      let target ← passFixed f.start.toNat 0 f.fixedSizes
      if f.isVariadic then passFurther f argc target) := by
    refine .bind (passFixed_outOfRange f.start.toNat 0 f.fixedSizes) ?_
    intro target
    split
    · exact passFurther_outOfRange f argc target
    · exact .pure ()
  simp only [passArguments]
  cases poison with
  | false => exact passed
  | true => exact .bind (Action.put_outOfRange _ _) fun _ => passed

theorem admission_origin (h : v.admission m number = .error e) :
    e.OfCall ∨ m.Misplaced number e := by
  simp only [admission] at h
  cases hf : m.function? number with
  | none =>
    rw [hf] at h
    cases h
    exact .inl trivial
  | some f =>
    rw [hf] at h
    simp only [bind, Except.bind, pure, Except.pure] at h
    split at h
    · rename_i outside
      cases h
      exact .inr ⟨f, hf, outside, rfl⟩
    split at h
    · split at h
      · cases hr : v.store.memory.resolve f.start.toNat f.locals.toNat with
        | ok i => rw [hr] at h; cases h
        | error e' =>
          rw [hr] at h
          cases h
          rw [Memory.resolve_error hr]
          exact .inl trivial
      · cases h
        exact .inl trivial
    · cases h
      exact .inl trivial

theorem enter_origin (h : (v.enter m number).1 = .error e) : e.OfCall ∨ m.Misplaced number e := by
  simp only [enter] at h
  cases ha : v.admission m number with
  | error e' =>
    rw [ha] at h
    cases h
    exact admission_origin ha
  | ok f =>
    rw [ha] at h
    simp only [act_eq] at h
    cases hp : (passArguments v.settings.deadbeefLocals f v.argc v.store).1 with
    | ok _ => rw [hp] at h; cases h
    | error e' =>
      rw [hp] at h
      cases h
      obtain ⟨address, rfl⟩ := passArguments_outOfRange _ _ _ _ _ hp
      exact .inl trivial

theorem resolve_origin (h : resolve m number = .error e) : e.OfCall := by
  simp only [resolve] at h
  split at h
  · cases h
    trivial
  · split at h
    · cases h
    · cases h
      trivial

theorem executable_origin (h : m.executable number = .error e) : e.OfCall := by
  simp only [Module.executable] at h
  cases hr : resolve m number with
  | ok f => rw [hr] at h; cases h
  | error e' =>
    rw [hr] at h
    cases h
    exact resolve_origin hr

theorem callee_origin (h : m.callee number = .error e) : e.OfCall := by
  simp only [Module.callee] at h
  cases hr : resolve m number with
  | error e' =>
    rw [hr] at h
    cases h
    exact resolve_origin hr
  | ok f =>
    rw [hr] at h
    simp only [bind, Except.bind, pure, Except.pure] at h
    split at h
    · cases h
    · split at h
      · cases h
        trivial
      · cases h

theorem call_origin {index : Nat} (h : (v.call m index number).1 = .fault e) :
    e.OfCall ∨ m.callee number = .ok .bytecode ∧ m.Misplaced number e := by
  simp only [call] at h
  split at h
  · rename_i hc
    cases h
    exact .inl (callee_origin hc)
  · cases h
  · rename_i hc
    split at h
    · rename_i he
      cases h
      exact (enter_origin (congrArg Prod.fst he)).imp_right fun misplaced => ⟨hc, misplaced⟩
    · cases h

theorem restoreLocals_origin (h : (v.restoreLocals m).1 = .error e) : e.OfLeaving := by
  simp only [restoreLocals] at h
  cases hf : m.function? v.control.function with
  | none => rw [hf] at h; cases h
  | some f =>
    rw [hf] at h
    dsimp only at h
    split at h
    · cases h
    · cases ht : v.control.saved.top? f.locals.toNat with
      | error e' =>
        rw [ht] at h
        cases h
        simp only [SavedLocals.top?] at ht
        split at ht
        · cases ht
          trivial
        · cases ht
      | ok words =>
        rw [ht] at h
        simp only [act_eq] at h
        cases hp : (Action.put f.start.toNat words v.store).1 with
        | ok _ => rw [hp] at h; cases h
        | error e' =>
          rw [hp] at h
          cases h
          rw [Action.put_error hp]
          trivial

theorem leave_origin (h : (v.leave m).1 = .error e) : e.OfLeaving := by
  simp only [leave] at h
  cases hp : v.control.calls.pop with
  | error e' =>
    rw [hp] at h
    cases h
    simp only [CallStack.pop] at hp
    split at hp
    · cases hp
      trivial
    · cases hp
  | ok popped =>
    rw [hp] at h
    exact restoreLocals_origin h

/-- What a turn of a run faulted with, and where that came from. -/
inductive FaultsWith (v : Machine) (frame : RunFrame) (executed : Nat) (next : Int) : Fault → Prop
    where
  | limit (reached : frame.budget.any (· ≤ executed)) :
      FaultsWith v frame executed next (.runawayLoop (frame.budget.getD 0))
  | outside (h : next < 0 ∨ frame.program.statements.size ≤ next.toNat) :
      FaultsWith v frame executed next (.invalidStatement next)
  | effect {st : Statement} {e : Fault} (fetched : frame.program.statements[next.toNat]? = some st)
      (h : (step v.settings frame.program next.toNat st v.store).1 = .error e) :
      FaultsWith v frame executed next e
  | call {e : Fault} (h : e.OfCall) : FaultsWith v frame executed next e
  | misplaced {st : Statement} {function : Word} {argc : Nat} {e : Fault}
      (fetched : frame.program.statements[next.toNat]? = some st)
      (called : (step v.settings frame.program next.toNat st v.store).1 = .ok (.call function argc))
      (bytecode : frame.program.callee function.toNat = .ok .bytecode)
      (h : frame.program.Misplaced function.toNat e) : FaultsWith v frame executed next e
  | returning (address : Int) : FaultsWith v frame executed next (.invalidGlobal address)
  | leaving {e : Fault} (u : Machine)
      (size : u.store.memory.words.size = v.store.memory.words.size)
      (control : u.control = { v.control with statement := next.toNat })
      (h : (u.leave frame.program).1 = .error e) : FaultsWith v frame executed next e

theorem turn_origin {frame : RunFrame} {executed : Nat} {next : Int}
    (h : (v.turn frame executed next).1 = .fault e) : FaultsWith v frame executed next e := by
  rcases turn_cases frame executed next v with ⟨kind, ht, ⟨rfl, reached⟩ | ⟨rfl, outside⟩⟩ |
    ⟨st, result, store, fetched, hs, ht⟩ <;> rw [ht] at h
  · cases h
    exact .limit reached
  · cases h
    exact .outside outside
  · cases result with
    | error e' =>
      cases h
      exact .effect fetched (congrArg Prod.fst hs)
    | ok control =>
      cases control with
      | next => cases h
      | jump target => cases h
      | call function argc =>
        rcases call_origin h with origin | ⟨bytecode, misplaced⟩
        · exact .call origin
        · exact .misplaced fetched (congrArg Prod.fst hs) bytecode misplaced
      | ret value =>
        dsimp only at h
        rw [follow_ret] at h
        obtain ⟨store', alike, ⟨e', he, address, rfl⟩ | ⟨-, he⟩⟩ :=
          returnFrom_cases frame.program value (v.ran frame.program next.toNat store)
        · rw [he] at h
          cases h
          exact .returning address
        · rw [he] at h
          split at h
          · rename_i left
            cases h
            exact .leaving ((v.ran frame.program next.toNat store).setStore store')
              ((step_alike hs).trans alike).size (ran_control ..) (congrArg Prod.fst left)
          · split at h <;> cases h

end Machine

namespace Configuration
variable {c c' : Configuration} {s : Session} {waiting : List Waiting} {kind : Fault}

/-- The faults that a step raises: calling the function that is to be executed, running a statement,
or failing as a builtin. -/
inductive Raises (c : Configuration) : Fault → Prop where
  | executing {number : Nat} {kind : Fault} (task : c.task = .execute number)
      (h : kind.OfCall ∨ c.machine.program.executable number = .ok .bytecode ∧
        c.machine.program.Misplaced number kind) : Raises c kind
  | fetching {frame : RunFrame} {executed : Nat} {next : Int} {kind : Fault}
      (task : c.task = .fetch frame executed next)
      (h : c.machine.FaultsWith frame executed next kind) : Raises c kind
  | builtin {kind : Fault} (task : c.task = .perform (.fail kind)) : Raises c kind

theorem perform_fault {p : HostProgram} (hn : perform s waiting p = some c')
    (h : c'.task.fault? = some kind) : p = .fail kind := by
  rcases perform_cases hn with ⟨outcome, rfl, hc⟩ | ⟨number, k, -, rfl⟩ | ⟨s', p', rfl, -, -⟩
  · rcases conclude_cases hc with ⟨frame, executed, next, rest, rfl, rfl, rfl⟩ |
      ⟨frame, executed, next, rest, e, rfl, rfl, rfl⟩ | ⟨m, rest, rfl, rfl⟩
    · cases h
    · exact congrArg HostProgram.fail (Option.some.inj h)
    · cases outcome with
      | ok _ => cases h
      | error e => exact congrArg HostProgram.fail (Option.some.inj h)
  · cases h
  · cases h

/-- A fault that ends a run or an execution did so before, or the step raised it. -/
theorem next_fault (hn : c.next = some c') (hf : c'.task.fault? = some kind) :
    c.task.fault? = some kind ∨ c.Raises kind := by
  obtain ⟨s, task, waiting⟩ := c
  cases task with
  | execute number =>
    cases hn
    right
    rcases execute_cases number s waiting with ⟨first, v, -, -, h⟩ | ⟨n, body, -, -, h⟩ |
      ⟨e, h, origin⟩ | ⟨e, v, hx, he, h⟩ <;> rw [h] at hf <;> cases hf
    · rcases origin with origin | ⟨n, rfl⟩
      · exact .executing rfl (.inl (Machine.executable_origin origin))
      · exact .executing rfl (.inl trivial)
    · have origin := Machine.enter_origin (congrArg Prod.fst he)
      exact .executing rfl (origin.imp_right fun misplaced => ⟨hx, misplaced⟩)
  | fetch frame executed next =>
    cases hn
    right
    cases ht : s.machine.turn frame executed next with
    | mk turn v =>
      rcases fetch_cases ht waiting with ⟨next', -, h⟩ | ⟨n, next', body, -, -, h⟩ | ⟨-, h⟩ |
        ⟨e, origin, h⟩ <;> rw [h] at hf <;> cases hf
      rcases origin with origin | ⟨n, next', -, rfl⟩
      · exact .fetching rfl (Machine.turn_origin ((congrArg Prod.fst ht).trans origin))
      · exact .fetching rfl (.call trivial)
  | unwind m exitDepth outcome =>
    cases hn
    left
    simp only [unwind] at hf
    split at hf
    · exact hf
    · cases outcome with
      | ok _ => cases hf
      | error f => exact hf
  | answer outcome =>
    obtain ⟨k, rest, -, rfl⟩ := answer_cases rfl hn
    cases hf
  | perform p => exact .inr (.builtin (congrArg Task.perform (perform_fault hn hf)))

/-- A fault that ends a run or an execution was raised by a step taken before. -/
theorem fault_raised {number n : Nat} (hc : after n (start number s) = some c)
    (hf : c.task.fault? = some kind) :
    ∃ k < n, ∃ d, after k (start number s) = some d ∧ d.Raises kind := by
  induction n generalizing c with
  | zero =>
    cases hc
    cases hf
  | succ n ih =>
    rw [after_succ] at hc
    obtain ⟨d, hd, hn⟩ := Option.bind_eq_some_iff.mp hc
    rcases next_fault hn hf with before | raised
    · obtain ⟨k, hk, e, he, raised⟩ := ih hd before
      exact ⟨k, Nat.lt_succ_of_lt hk, e, he, raised⟩
    · exact ⟨n, Nat.lt_succ_self n, d, hd, raised⟩

/-- A run or an execution ends with the fault, or a builtin is about to fail with it. -/
def Doomed (kind : Fault) (c : Configuration) : Prop :=
  c.task.fault? = some kind ∨ c.task = .perform (.fail kind)

/-- Who waits for the outcome has no say in a fatal fault. -/
theorem Doomed.next (fatal : kind.isFatal = true) (h : c.Doomed kind) (hn : c.next = some c') :
    c'.Doomed kind := by
  obtain ⟨s, task, waiting⟩ := c
  rcases h with faulted | failing
  · cases task with
    | execute number => cases faulted
    | fetch frame executed next => cases faulted
    | perform p => cases faulted
    | unwind m exitDepth outcome =>
      cases hn
      cases outcome with
      | ok _ => cases faulted
      | error e =>
        simp only [unwind]
        split
        · exact .inl faulted
        · exact .inl faulted
    | answer outcome =>
      obtain ⟨k, rest, -, rfl⟩ := answer_cases rfl hn
      cases outcome with
      | ok _ => cases faulted
      | error e =>
        cases faulted
        exact .inr (congrArg Task.perform (if_pos fatal))
  · cases failing
    have told : conclude (.error kind) s waiting = some c' := hn
    rcases conclude_cases told with ⟨frame, executed, next, rest, -, ended, -⟩ |
      ⟨frame, executed, next, rest, e, -, ended, rfl⟩ | ⟨m, rest, -, rfl⟩
    · cases ended
    · cases ended
      exact .inl rfl
    · exact .inl rfl

end Configuration

open GameBytecode.Configuration in
/-- No execution that comes to fail with the fault has another outcome. -/
def Fault.Uncaught (kind : Fault) : Prop :=
  ∀ number s n c fuel outcome s', after n (start number s) = some c → c.Doomed kind →
    Session.execute fuel number s = (.ofOutcome outcome, s') →
      ∃ e, outcome = .error e ∧ e.kind = kind

open GameBytecode.Configuration in
theorem Fault.uncaught_of_isFatal {kind : Fault} (fatal : kind.isFatal = true) :
    kind.Uncaught := by
  intro number s n c fuel outcome s' hc doomed ran
  obtain ⟨last, ended⟩ := (execute_iff_steps number s s' outcome).mp ⟨fuel, ran⟩
  have onwards {k : Nat} {d : Configuration} (hd : after k c = some d) : d.Doomed kind :=
    after_invariant doomed (fun _ _ h hn => h.next fatal hn) hd
  have final : (⟨s', .answer outcome, []⟩ : Configuration).Doomed kind := by
    rcases Nat.le_total n last with before | behind
    · obtain ⟨k, rfl⟩ := Nat.exists_eq_add_of_le before
      rw [after_add, hc, Option.bind_some] at ended
      exact onwards ended
    · -- there are no steps behind the outcome
      obtain ⟨k, rfl⟩ := Nat.exists_eq_add_of_le behind
      rw [after_add, ended, Option.bind_some] at hc
      cases k with
      | zero =>
        cases hc
        exact doomed
      | succ k =>
        have none := after_isSome_of_le (Option.isSome_of_mem hc) (Nat.succ_le_succ (Nat.zero_le k))
        cases none
  rcases final with faulted | failing
  · cases outcome with
    | ok _ => cases faulted
    | error e => exact ⟨e, rfl, Option.some.inj faulted⟩
  · cases failing

end GameBytecode
