import GameBytecode.Proofs.SilentRuns

/-!
What a machine that a host has come to records of an execution. Every function is charged for the
statements that it ran, the trace ends with the lines of the statements, and nothing else depends on
whether there is a trace.
-/
namespace GameBytecode
namespace Machine

/-- The record of a machine is in order: the trace keeps as many lines as it should, and every function
of the program has its count. -/
structure Recorded (v : Machine) : Prop where
  trace : v.trace.Sound
  capacity : v.trace.capacity = TraceBuffer.defaultCapacity
  counts : v.profile.size = v.program.functions.size

variable {v w : Machine}

theorem recorded_of_load {image : Text.Bytes} {capacity heapBytes : Nat} {settings : Settings}
    (h : load image capacity heapBytes settings = .ok v) : v.Recorded := by
  obtain ⟨program, -, h⟩ := ok_of_bind h
  obtain ⟨memory, -, h⟩ := ok_of_bind h
  cases h
  exact ⟨.empty _, rfl, Array.size_replicate⟩

theorem recorded_of_reload {image : Text.Bytes} (h : v.reload image = .ok w) : w.Recorded := by
  obtain ⟨u, loaded, rfl⟩ := reload_ok h
  obtain ⟨trace, capacity, counts⟩ := recorded_of_load loaded
  exact ⟨trace, capacity, counts⟩

/-- Statements leave the record in order. -/
theorem Recorded.of_postAll (h : v.Recorded) {log : List Fetched}
    (posted : w.ledger = v.ledger.postAll log) (program : w.program = v.program) : w.Recorded := by
  obtain ⟨trace, capacity, counts⟩ := h
  have traced : w.trace = (v.ledger.postAll log).trace := congrArg Ledger.trace posted
  have counted : w.profile = (v.ledger.postAll log).profile := congrArg Ledger.profile posted
  rw [Ledger.postAll_trace] at traced
  refine ⟨?_, ?_, ?_⟩
  · rw [traced]
    split
    · exact (trace.pushAll _).1
    · exact trace
  · rw [traced]
    split
    · exact (TraceBuffer.pushAll_capacity ..).trans capacity
    · exact capacity
  · rw [counted, Ledger.postAll_size, program]
    exact counts

end Machine

namespace Configuration
variable {c c' : Configuration}

theorem next_recorded (h : c.machine.Recorded) (hn : c.next = some c') : c'.machine.Recorded := by
  rcases next_cognate hn with cognate | ⟨image, reloaded⟩
  · rcases next_ledger hn with posted | ⟨on, k, -, switched⟩ | ⟨image, k, -, reloaded⟩
    · exact h.of_postAll posted cognate.program
    · have traced : c'.machine.trace = c.machine.trace := congrArg Ledger.trace switched
      have counted : c'.machine.profile = c.machine.profile := congrArg Ledger.profile switched
      refine ⟨?_, ?_, ?_⟩
      · rw [traced]
        exact h.trace
      · rw [traced]
        exact h.capacity
      · rw [counted, cognate.program]
        exact h.counts
    · exact Machine.recorded_of_reload reloaded
  · exact Machine.recorded_of_reload reloaded

/-- Where nobody switches tracing or reloads, the record is posted with the statements run. -/
theorem after_ledger (untraced : c.Untraced) {n : Nat} {d : Configuration}
    (hd : after n c = some d) : d.machine.ledger = c.machine.ledger.postAll (log n c) := by
  induction n generalizing d with
  | zero =>
    cases hd
    rfl
  | succ n ih =>
    rw [after_succ] at hd
    obtain ⟨e, he, hn⟩ := Option.bind_eq_some_iff.mp hd
    have reached : e.Untraced := after_invariant untraced (fun _ _ untraced => untraced.next) he
    rw [log_succ, he, Option.bind_some, Ledger.postAll_append, ← ih he]
    rcases next_ledger hn with posted | ⟨on, k, task, -⟩ | ⟨image, k, task, -⟩
    · exact posted
    · have performed := reached.task
      rw [task] at performed
      exact performed.elim
    · have performed := reached.task
      rw [task] at performed
      exact performed.elim

end Configuration

namespace Session
open GameBytecode.Configuration

/-- What a host can come to: it has loaded a module, and is at some step of a program of its own. -/
def Reached (s : Session) : Prop :=
  ∃ image capacity heapBytes settings v builtins program n c,
    Machine.load image capacity heapBytes settings = .ok v ∧
      after n ⟨⟨v, builtins⟩, .perform program, []⟩ = some c ∧ c.session = s

theorem Reached.recorded {s : Session} (h : s.Reached) : s.machine.Recorded := by
  obtain ⟨image, capacity, heapBytes, settings, v, builtins, program, n, c, loaded, hc, rfl⟩ := h
  exact after_invariant (P := fun c => c.machine.Recorded) (Machine.recorded_of_load loaded)
    (fun _ _ recorded => next_recorded recorded) hc

/-- The session with tracing switched. -/
def toggled (s : Session) : Session := s.onMachine fun v => { v with tracing := !v.tracing }

variable {s s' : Session} {number : Nat} {outcome : Except RuntimeFault Unit}

/-- With tracing switched an execution has the same outcome, and does the same to all but the trace. -/
theorem execute_toggled (untraced : s.Untraced) {n : Nat}
    (hn : after n (start number s) = some ⟨s', .answer outcome, []⟩) :
    ∃ fuel t, execute fuel number s.toggled = (.ofOutcome outcome, t) ∧ t.silent = s'.silent := by
  have quiet := after_silent (start_untraced untraced number) n
  have quiet' := after_silent (start_untraced (s := s.toggled) untraced number) n
  rw [hn] at quiet
  -- Without a trace the two start as one.
  have same : (start number s.toggled).silent = (start number s).silent := rfl
  rw [same, quiet] at quiet'
  obtain ⟨⟨t, task, waiting⟩, hd, alike⟩ := Option.map_eq_some_iff.mp quiet'.symm
  have sessions : t.silent = s'.silent := congrArg Configuration.session alike
  have tasks : task = .answer outcome := congrArg Configuration.task alike
  have alone : waiting = [] := congrArg Configuration.waiting alike
  subst tasks alone
  obtain ⟨fuel, ran⟩ := (execute_iff_steps number s.toggled t outcome).mpr ⟨n, hd⟩
  exact ⟨fuel, t, ran, sessions⟩

/-- The account of an execution that has ended, whatever the outcome. Every function of the module has
been charged for the statements run while it was current. With tracing on, the trace holds the last
lines of what it held before and of the statements, each line as it read before the statement ran; with
tracing off it is as it was. With tracing switched the outcome is the same, and so is all of the session
but the trace. -/
theorem execution_accounted (reached : s.Reached) (untraced : s.Untraced) {fuel : Nat}
    (ran : execute fuel number s = (.ofOutcome outcome, s')) :
    ∃ n, after n (start number s) = some ⟨s', .answer outcome, []⟩ ∧
      (∀ function < s.machine.program.functions.size, ∃ count,
        s.machine.profile[function]? = some count ∧
        s'.machine.profile[function]? =
          some (count + (log n (start number s)).countP (·.function = function))) ∧
      s'.machine.tracing = s.machine.tracing ∧
      (s.machine.tracing = true →
        s'.machine.trace.toList = recent TraceBuffer.defaultCapacity
          (s.machine.trace.toList ++ (log n (start number s)).map Fetched.line)) ∧
      (s.machine.tracing = false → s'.machine.trace = s.machine.trace) ∧
      ∃ fuel' t, execute fuel' number s.toggled = (.ofOutcome outcome, t) ∧ t.silent = s'.silent := by
  obtain ⟨trace, capacity, counts⟩ := reached.recorded
  obtain ⟨n, hn⟩ := (execute_iff_steps number s s' outcome).mp ⟨fuel, ran⟩
  have posted := after_ledger (start_untraced untraced number) hn
  have traced := (congrArg Ledger.trace posted).trans (Ledger.postAll_trace ..)
  refine ⟨n, hn, ?_, ?_, ?_, ?_, execute_toggled untraced hn⟩
  · intro function inside
    rw [← counts] at inside
    have old := Array.getElem?_eq_getElem inside
    refine ⟨_, old, ?_⟩
    have charged := (congrArg (·.profile[function]?) posted).trans
      (Ledger.postAll_profile _ _ function)
    exact charged.trans (congrArg (Option.map _) old)
  · exact (congrArg Ledger.tracing posted).trans (Ledger.postAll_tracing ..)
  · intro on
    have pushed := traced.trans (if_pos on)
    rw [← capacity]
    exact (congrArg TraceBuffer.toList pushed).trans (trace.pushAll _).2
  · intro off
    exact traced.trans (if_neg (Bool.eq_false_iff.mp off))

theorem again_untraced : again.toggled.Untraced := by
  intro b hb
  rw [List.mem_singleton.mp hb]
  exact fun _ => trivial

theorem toggled_reached {image : Text.Bytes} {capacity heapBytes : Nat} {settings : Settings}
    {v : Machine} (h : Machine.load image capacity heapBytes settings = .ok v)
    (builtins : List Builtin) : (toggled ⟨v, builtins⟩).Reached := by
  refine ⟨image, capacity, heapBytes, settings, v, builtins, .setTracing true .done, 1, _, h, rfl, ?_⟩
  obtain ⟨program, -, h⟩ := ok_of_bind h
  obtain ⟨memory, -, h⟩ := ok_of_bind h
  cases h
  rfl

theorem again_ran : (execute 9 1 again.toggled).1 = .ofOutcome (.ok ()) ∧
    (execute 9 1 again.toggled).2.machine.profile = #[0, 2, 1, 0] := by decide +kernel

theorem again_starts : again.toggled.machine.tracing = true ∧
    again.toggled.machine.profile = #[0, 0, 0, 0] ∧
    again.toggled.machine.program.functions.size = 4 := by decide +kernel

/-- The execution of the first function, which executes the second one through a builtin. Two of the
statements run are charged to the first function, and their lines are traced in order. -/
theorem again_accounted : again.toggled.Reached ∧ again.toggled.Untraced ∧
    ∃ s' n, execute 9 1 again.toggled = (.ofOutcome (.ok ()), s') ∧
      after n (start 1 again.toggled) = some ⟨s', .answer (.ok ()), []⟩ ∧
      (log n (start 1 again.toggled)).countP (·.function = 1) = 2 ∧
      s'.machine.trace.toList = recent TraceBuffer.defaultCapacity
        (again.toggled.machine.trace.toList ++ (log n (start 1 again.toggled)).map Fetched.line) := by
  have reached : again.toggled.Reached := by
    have loaded := eq_ok_get againImage_loads
    exact toggled_reached loaded again.builtins
  obtain ⟨finished, charged⟩ := again_ran
  obtain ⟨on, fresh, functions⟩ := again_starts
  cases ran : execute 9 1 again.toggled with
  | mk ending s' =>
    rw [ran] at finished charged
    dsimp only at finished charged
    rw [finished] at ran
    obtain ⟨n, hn, counts, -, traced, -⟩ := execution_accounted reached again_untraced ran
    obtain ⟨count, before, later⟩ := counts 1 (by omega)
    rw [fresh] at before
    rw [charged] at later
    cases before
    have two : 2 = 0 + (log n (start 1 again.toggled)).countP (·.function = 1) :=
      Option.some.inj later
    exact ⟨reached, again_untraced, s', n, congrArg (·, s') finished, hn,
      (two.trans (Nat.zero_add _)).symm, traced on⟩

end Session
end GameBytecode
