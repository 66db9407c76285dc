import GameBytecode.Proofs.RunInvariant
import GameBytecode.Proofs.TransitionAgreement

/-!
What one step of a configuration can do, said once for each kind of step.
-/
namespace GameBytecode

/-- Two machines with one program and one configuration, whose memories have one size. -/
structure Machine.Cognate (v v' : Machine) : Prop where
  program : v'.program = v.program
  settings : v'.settings = v.settings
  size : v'.store.memory.words.size = v.store.memory.words.size

theorem Machine.Kin.cognate {v v' : Machine} (h : v.Kin v') : v.Cognate v' :=
  ⟨h.program, h.settings, h.store.size⟩

theorem Machine.reload_ok {v w : Machine} {image : Text.Bytes} (h : v.reload image = .ok w) :
    ∃ u, load image v.capacity v.heapBytes v.settings = .ok u ∧
      w = { u with console := v.console } := by
  unfold reload at h
  cases hu : load image v.capacity v.heapBytes v.settings with
  | error e => rw [hu] at h; cases h
  | ok u =>
    rw [hu] at h
    exact ⟨u, rfl, (Except.ok.inj h).symm⟩

theorem Machine.reload_settings {v w : Machine} {image : Text.Bytes} (h : v.reload image = .ok w) :
    w.settings = v.settings := by
  obtain ⟨u, hu, rfl⟩ := reload_ok h
  obtain ⟨-, -, settings, -⟩ := load_ok hu
  exact settings

namespace Configuration
variable {c c' : Configuration} {s : Session} {waiting : List Waiting}

/-- An execution starts a run, starts a builtin, or fails: before it has entered the function, or
half way through entering it. -/
theorem execute_cases (number : Nat) (s : Session) (waiting : List Waiting) :
    (∃ first v, s.machine.program.executable number = .ok .bytecode ∧
      (s.onMachine Machine.beginRun).machine.enter s.machine.program number = (.ok first, v) ∧
      execute number s waiting = ⟨{ s with machine := v },
        .fetch (.opening s.machine.program s.machine.depth v.settings) 0 first, waiting⟩) ∨
    (∃ n body, s.machine.program.executable number = .ok (.builtin n) ∧
      s.builtin? n.toNat = some body ∧
      execute number s waiting = ⟨s.onMachine Machine.beginRun, .perform body,
        .execution s.machine.program :: waiting⟩) ∨
    (∃ kind, execute number s waiting =
        settle (.error ((s.onMachine Machine.beginRun).machine.fault s.machine.program kind))
          (s.onMachine Machine.beginRun) waiting ∧
      (s.machine.program.executable number = .error kind ∨ ∃ n, kind = .badBuiltin n)) ∨
    ∃ kind v, s.machine.program.executable number = .ok .bytecode ∧
      (s.onMachine Machine.beginRun).machine.enter s.machine.program number = (.error kind, v) ∧
      execute number s waiting =
        crash s.machine.program s.machine.depth kind { s with machine := v } waiting := by
  simp only [execute]
  cases hc : s.machine.program.executable number with
  | error e => exact .inr (.inr (.inl ⟨e, rfl, .inl rfl⟩))
  | ok callee =>
    cases callee with
    | builtin n =>
      dsimp only
      cases hb : (s.onMachine Machine.beginRun).builtin? n.toNat with
      | some body => exact .inr (.inl ⟨n, body, rfl, hb, rfl⟩)
      | none => exact .inr (.inr (.inl ⟨_, rfl, .inr ⟨_, rfl⟩⟩))
    | bytecode =>
      dsimp only
      cases he : (s.onMachine Machine.beginRun).machine.enter s.machine.program number with
      | mk result v =>
        cases result with
        | ok first => exact .inl ⟨first, v, rfl, rfl, rfl⟩
        | error e => exact .inr (.inr (.inr ⟨e, v, rfl, rfl, rfl⟩))

/-- After a turn a run goes on, waits for a builtin, or is over. -/
theorem fetch_cases {frame : RunFrame} {executed : Nat} {next : Int} {turn : Turn} {v : Machine}
    (ht : s.machine.turn frame executed next = (turn, v)) (waiting : List Waiting) :
    (∃ next', turn = .go next' ∧ fetch frame executed next s waiting =
      ⟨{ s with machine := v }, .fetch frame (executed + 1) next', waiting⟩) ∨
    (∃ n next' body, turn = .builtin n next' ∧ s.builtin? n.toNat = some body ∧
      fetch frame executed next s waiting =
        ⟨{ s with machine := v }, .perform body, .run frame (executed + 1) next' :: waiting⟩) ∨
    (turn = .returned ∧ fetch frame executed next s waiting =
      ⟨{ s with machine := v }, .unwind frame.program frame.exitDepth (.ok ()), waiting⟩) ∨
    ∃ kind, (turn = .fault kind ∨ ∃ n next', turn = .builtin n next' ∧ kind = .badBuiltin n.toNat) ∧
      fetch frame executed next s waiting =
        crash frame.program frame.exitDepth kind { s with machine := v } waiting := by
  simp only [fetch, ht]
  cases turn with
  | go next' => exact .inl ⟨next', rfl, rfl⟩
  | returned => exact .inr (.inr (.inl ⟨rfl, rfl⟩))
  | fault kind => exact .inr (.inr (.inr ⟨kind, .inl rfl, rfl⟩))
  | builtin n next' =>
    dsimp only
    cases hb : ({ s with machine := v } : Session).builtin? n.toNat with
    | some body => exact .inr (.inl ⟨n, next', body, rfl, hb, rfl⟩)
    | none => exact .inr (.inr (.inr ⟨_, .inr ⟨n, next', rfl, rfl⟩, rfl⟩))

/-- A builtin that is over tells its outcome to a run or to an execution. -/
theorem conclude_cases {outcome : Except Fault Unit} (hn : conclude outcome s waiting = some c') :
    (∃ frame executed next rest, waiting = .run frame executed next :: rest ∧ outcome = .ok () ∧
      c' = ⟨s, .fetch frame executed next, rest⟩) ∨
    (∃ frame executed next rest kind, waiting = .run frame executed next :: rest ∧
      outcome = .error kind ∧ c' = crash frame.program frame.exitDepth kind s rest) ∨
    ∃ m rest, waiting = .execution m :: rest ∧
      c' = settle (outcome.mapError (s.machine.fault m)) s rest := by
  cases waiting with
  | nil => cases hn
  | cons w rest =>
    cases w with
    | program k => cases hn
    | execution m =>
      cases hn
      exact .inr (.inr ⟨m, rest, rfl, rfl⟩)
    | run frame executed next =>
      cases outcome with
      | ok _ =>
        cases hn
        exact .inl ⟨frame, executed, next, rest, rfl, rfl, rfl⟩
      | error kind =>
        cases hn
        exact .inr (.inl ⟨frame, executed, next, rest, kind, rfl, rfl, rfl⟩)

/-- A host program is over, asks for an execution, puts another module in place, or goes on with a
machine of the same kind and the same calls. -/
theorem perform_requests {p : HostProgram} (hn : perform s waiting p = some c') :
    (∃ outcome, p = .ofOutcome outcome ∧ conclude outcome s waiting = some c') ∨
    (∃ number k, p = .execute number k ∧ c' = ⟨s, .execute number, .program k :: waiting⟩) ∨
    (∃ image k v, p = .reload image k ∧ s.machine.reload image = .ok v ∧
      c' = ⟨{ s with machine := v }, .perform (k (.ok ())), waiting⟩) ∨
    ∃ s' p', c' = ⟨s', .perform p', waiting⟩ ∧ s.machine.Kin s'.machine ∧
      s'.machine.control = s.machine.control ∧
      ∀ image k, p = .reload image k → (s.machine.reload image).toOption.isSome = false := by
  cases p with
  | done => exact .inl ⟨.ok (), rfl, hn⟩
  | fail e => exact .inl ⟨.error e, rfl, hn⟩
  | execute number k =>
    cases hn
    exact .inr (.inl ⟨number, k, rfl, rfl⟩)
  | reload image k =>
    simp only [perform] at hn
    split at hn
    · rename_i v hr
      cases hn
      exact .inr (.inr (.inl ⟨image, k, v, rfl, hr, rfl⟩))
    · rename_i e hr
      cases hn
      refine .inr (.inr (.inr ⟨s, _, rfl, .refl _, rfl, fun image k hp => ?_⟩))
      cases hp
      rw [hr]
      rfl
  | write address words k =>
    have alike := Action.put_alike address words s.machine.store
    cases hn
    exact .inr (.inr (.inr ⟨_, _, rfl, ⟨rfl, rfl, alike⟩, rfl, fun _ _ hp => HostProgram.noConfusion hp⟩))
  | makeString bytes k =>
    cases hn
    exact .inr (.inr (.inr ⟨_, _, rfl, ⟨rfl, rfl, rfl, StringArena.runs_push ..⟩, rfl,
      fun _ _ hp => HostProgram.noConfusion hp⟩))
  | _ =>
    cases hn
    exact .inr (.inr (.inr ⟨_, _, rfl, ⟨rfl, rfl, rfl, rfl⟩, rfl,
      fun _ _ hp => HostProgram.noConfusion hp⟩))

/-- A host program is over, asks for an execution, or goes on with the same settings, and with the
same calls if it does not reload. -/
theorem perform_cases {p : HostProgram} (hn : perform s waiting p = some c') :
    (∃ outcome, p = .ofOutcome outcome ∧ conclude outcome s waiting = some c') ∨
    (∃ number k, p = .execute number k ∧ c' = ⟨s, .execute number, .program k :: waiting⟩) ∨
    ∃ s' p', c' = ⟨s', .perform p', waiting⟩ ∧ s'.machine.settings = s.machine.settings ∧
      (p.Steady → s'.machine.control = s.machine.control) := by
  rcases perform_requests hn with ends | asks | ⟨image, k, v, rfl, hr, rfl⟩ |
    ⟨s', p', rfl, kin, control, -⟩
  · exact .inl ends
  · exact .inr (.inl asks)
  · exact .inr (.inr ⟨_, _, rfl, Machine.reload_settings hr, False.elim⟩)
  · exact .inr (.inr ⟨s', p', rfl, kin.settings, fun _ => control⟩)

theorem answer_cases {outcome : Except RuntimeFault Unit} {c : Configuration}
    (ht : c.task = .answer outcome) (hn : c.next = some c') :
    ∃ k rest, c.waiting = .program k :: rest ∧
      c' = ⟨c.session, .perform (resume k outcome), rest⟩ := by
  simp only [next, ht] at hn
  split at hn
  · rename_i k rest hw
    cases hn
    exact ⟨k, rest, hw, rfl⟩
  · cases hn

/-- A request of a host program keeps the machine of one kind, or puts another in its place. -/
theorem perform_cognate {p : HostProgram} (hn : perform s waiting p = some c') :
    s.machine.Cognate c'.machine ∨ ∃ image, s.machine.reload image = .ok c'.machine := by
  have same : s.machine.Cognate s.machine := ⟨rfl, rfl, rfl⟩
  rcases perform_requests hn with ⟨outcome, -, concluded⟩ | ⟨number, k, -, rfl⟩ |
    ⟨image, k, v, -, hr, rfl⟩ | ⟨s', p', rfl, kin, -, -⟩
  · left
    rcases conclude_cases concluded with ⟨frame, executed, next, rest, -, -, rfl⟩ |
      ⟨frame, executed, next, rest, kind, -, -, rfl⟩ | ⟨m, rest, -, rfl⟩
    · exact same
    · exact same
    · exact ⟨rfl, rfl, rfl⟩
  · exact .inl same
  · exact .inr ⟨image, hr⟩
  · exact .inl kin.cognate

/-- A step keeps program, settings and size of memory, or puts another module in place. -/
theorem next_cognate (hn : c.next = some c') :
    c.machine.Cognate c'.machine ∨ ∃ image, c.machine.reload image = .ok c'.machine := by
  obtain ⟨s, task, waiting⟩ := c
  cases task with
  | execute number =>
    cases hn
    have entered {result : Except Fault Nat} {v : Machine}
        (hx : s.machine.program.executable number = .ok .bytecode)
        (he : (s.onMachine Machine.beginRun).machine.enter s.machine.program number = (result, v)) :
        s.machine.Cognate v := by
      have above := Machine.enter_above (s.onMachine Machine.beginRun).machine s.machine.program
        (Machine.executable_bytecode hx)
      rw [he] at above
      exact ⟨above.1.program, above.1.settings, above.1.store.size⟩
    left
    rcases execute_cases number s waiting with ⟨first, v, hx, he, h⟩ | ⟨n, body, -, -, h⟩ |
      ⟨kind, h, -⟩ | ⟨kind, v, hx, he, h⟩
    · rw [h]
      exact entered hx he
    · rw [h]
      exact ⟨rfl, rfl, rfl⟩
    · rw [h]
      exact ⟨rfl, rfl, rfl⟩
    · rw [h]
      exact entered hx he
  | fetch frame executed next =>
    cases hn
    have kin := (Machine.turn_kin frame executed next s.machine).cognate
    left
    rcases fetch_cases (s := s) rfl waiting with ⟨next', -, h⟩ | ⟨n, next', body, -, -, h⟩ |
      ⟨-, h⟩ | ⟨kind, -, h⟩ <;> rw [h] <;> exact kin
  | unwind m exitDepth outcome =>
    cases hn
    left
    simp only [unwind]
    split
    · exact (Machine.leave_kin s.machine m).cognate
    · exact ⟨rfl, rfl, rfl⟩
  | answer outcome =>
    obtain ⟨k, rest, -, rfl⟩ := answer_cases rfl hn
    exact .inl ⟨rfl, rfl, rfl⟩
  | perform p => exact perform_cognate hn

theorem next_settings (hn : c.next = some c') : c'.machine.settings = c.machine.settings := by
  rcases next_cognate hn with cognate | ⟨image, hr⟩
  · exact cognate.settings
  · exact Machine.reload_settings hr

end Configuration
end GameBytecode
