import GameBytecode.Proofs.LocalsRoundTrip
import GameBytecode.Proofs.TransitionAgreement
import GameBytecode.Proofs.WithoutReload

/-!
What ends an execution that finishes. It is the return of the very function that the host executed,
unless a builtin has put another module in place: then the frame of that function is gone, and a return
of some other function can be taken for its own.
-/
namespace GameBytecode

/-- At the bottom of those who wait is a run. -/
def Waiting.Rooted (waiting : List Waiting) : Prop :=
  ∃ above frame executed next, waiting = above ++ [.run frame executed next]

namespace Waiting.Rooted
variable {w : Waiting} {waiting : List Waiting}

theorem cons (h : Rooted waiting) : Rooted (w :: waiting) := by
  obtain ⟨above, frame, executed, next, rfl⟩ := h
  exact ⟨w :: above, frame, executed, next, rfl⟩

theorem tail (h : Rooted (w :: waiting)) :
    (∃ frame executed next, w = .run frame executed next) ∧ waiting = [] ∨ Rooted waiting := by
  obtain ⟨above, frame, executed, next, hw⟩ := h
  cases above with
  | nil =>
    obtain ⟨rfl, rfl⟩ := List.cons.inj hw
    exact .inl ⟨⟨frame, executed, next, rfl⟩, rfl⟩
  | cons w' above =>
    obtain ⟨rfl, rfl⟩ := List.cons.inj hw
    exact .inr ⟨above, frame, executed, next, rfl⟩

end Waiting.Rooted

theorem Machine.Awaited.lt_depth {v : Machine} {depth : Nat} {waiting : List Waiting}
    (h : v.Awaited depth waiting) (rooted : Waiting.Rooted waiting) : v.depth < depth := by
  induction waiting generalizing depth with
  | nil =>
    obtain ⟨above, frame, executed, next, hw⟩ := rooted
    cases above <;> cases hw
  | cons w waiting ih =>
    cases w with
    | run frame executed next => exact Nat.lt_of_le_of_lt h.2.2.depth_le h.2.1
    | program k =>
      rcases rooted.tail with ⟨⟨frame, executed, next, hw⟩, -⟩ | below
      · cases hw
      · exact ih h.2 below
    | execution m =>
      rcases rooted.tail with ⟨⟨frame, executed, next, hw⟩, -⟩ | below
      · cases hw
      · exact ih h below

theorem Machine.call_ne_returned (m : Module) (index number : Nat) (v : Machine) :
    (v.call m index number).1 ≠ .returned := by
  unfold call
  split
  · exact Turn.noConfusion
  · exact Turn.noConfusion
  · cases v.enter m number with
    | mk result u => cases result <;> exact Turn.noConfusion

/-- A turn after which the run has returned has come to the depth at which the run ends. -/
theorem Machine.turn_returned {frame : RunFrame} {executed : Nat} {next : Int} {v : Machine}
    (h : (v.turn frame executed next).1 = .returned) :
    (v.turn frame executed next).2.depth = frame.exitDepth := by
  rcases turn_cases frame executed next v with ⟨kind, ht, -⟩ | ⟨st, result, store, -, -, ht⟩
  · rw [ht] at h
    cases h
  · rw [ht] at h ⊢
    cases result with
    | error e => cases h
    | ok control =>
      cases control with
      | next => cases h
      | jump target => cases h
      | call function argc => exact absurd h (call_ne_returned _ _ _ _)
      | ret value =>
        dsimp only at h ⊢
        rw [follow_ret] at h ⊢
        cases hr : (v.ran frame.program next.toNat store).returnFrom frame.program value with
        | mk result u =>
          rw [hr] at h
          cases result with
          | error e => cases h
          | ok done =>
            dsimp only at h ⊢
            split at h
            · rename_i reached
              rw [if_pos reached]
              exact reached
            · cases h

namespace Configuration
variable {c c' : Configuration}

/-- The run that was started first is in progress: it fetches a statement, or it waits. -/
def Inside (c : Configuration) : Prop :=
  (∃ frame executed next, c.task = .fetch frame executed next ∧ c.waiting = []) ∨
    Waiting.Rooted c.waiting

/-- The run that was started first is over, with an outcome, and its functions are left. -/
def Over (c : Configuration) (outcome : Except RuntimeFault Unit) : Prop :=
  (∃ m exitDepth, c.task = .unwind m exitDepth outcome) ∧ c.waiting = []

theorem crash_over (m : Module) (exitDepth : Nat) (kind : Fault) (s : Session) :
    Over (crash m exitDepth kind s []) (.error (s.machine.fault m kind)) :=
  ⟨⟨m, exitDepth, rfl⟩, rfl⟩

/-- A step of the run keeps it in progress, or it is a fault, or the run has returned. -/
theorem fetch_inside (frame : RunFrame) (executed : Nat) (next : Int) (s : Session) :
    (fetch frame executed next s []).Inside ∨
      (∃ e, (fetch frame executed next s []).Over (.error e)) ∨
      (s.machine.turn frame executed next).1 = .returned ∧
        fetch frame executed next s [] =
          ⟨{ s with machine := (s.machine.turn frame executed next).2 },
            .unwind frame.program frame.exitDepth (.ok ()), []⟩ := by
  unfold fetch
  cases s.machine.turn frame executed next with
  | mk turn u =>
    cases turn with
    | go next' => exact .inl (.inl ⟨frame, executed + 1, next', rfl, rfl⟩)
    | returned => exact .inr (.inr ⟨rfl, rfl⟩)
    | fault kind => exact .inr (.inl ⟨_, crash_over ..⟩)
    | builtin n next' =>
      dsimp only
      cases ({ s with machine := u } : Session).builtin? n.toNat with
      | none => exact .inr (.inl ⟨_, crash_over ..⟩)
      | some body => exact .inl (.inr ⟨[], frame, executed + 1, next', rfl⟩)

theorem conclude_inside {outcome : Except Fault Unit} {s : Session} {waiting : List Waiting}
    (rooted : Waiting.Rooted waiting) (hn : conclude outcome s waiting = some c') :
    c'.Inside ∨ ∃ e, c'.Over (.error e) := by
  cases waiting with
  | nil => cases hn
  | cons w waiting =>
    cases w with
    | program k => cases hn
    | execution m =>
      cases hn
      rcases rooted.tail with ⟨⟨frame, executed, next, hw⟩, -⟩ | below
      · cases hw
      · exact .inl (.inr below)
    | run frame executed next =>
      rcases rooted.tail with ⟨-, rfl⟩ | below
      · cases outcome with
        | ok _ =>
          cases hn
          exact .inl (.inl ⟨frame, executed, next, rfl, rfl⟩)
        | error e =>
          cases hn
          exact .inr ⟨_, crash_over ..⟩
      · cases outcome <;> cases hn <;> exact .inl (.inr below)

theorem execute_rooted {waiting : List Waiting} (rooted : Waiting.Rooted waiting) (number : Nat)
    (s : Session) : Waiting.Rooted (execute number s waiting).waiting := by
  simp only [execute]
  cases s.machine.program.executable number with
  | error e => exact rooted
  | ok callee =>
    cases callee with
    | builtin n =>
      dsimp only
      cases (s.onMachine Machine.beginRun).builtin? n.toNat with
      | none => exact rooted
      | some body => exact rooted.cons
    | bytecode =>
      dsimp only
      cases (s.onMachine Machine.beginRun).machine.enter s.machine.program number with
      | mk result u => cases result <;> exact rooted

theorem fetch_rooted {waiting : List Waiting} (rooted : Waiting.Rooted waiting) (frame : RunFrame)
    (executed : Nat) (next : Int) (s : Session) :
    Waiting.Rooted (fetch frame executed next s waiting).waiting := by
  unfold fetch
  cases s.machine.turn frame executed next with
  | mk turn u =>
    cases turn with
    | builtin n next' =>
      dsimp only
      cases ({ s with machine := u } : Session).builtin? n.toNat with
      | none => exact rooted
      | some body => exact rooted.cons
    | _ => exact rooted

theorem perform_inside {p : HostProgram} {s : Session} {waiting : List Waiting}
    (rooted : Waiting.Rooted waiting) (hn : perform s waiting p = some c') :
    c'.Inside ∨ ∃ e, c'.Over (.error e) := by
  cases p with
  | done => exact conclude_inside rooted (show conclude (.ok ()) s waiting = some c' from hn)
  | fail e => exact conclude_inside rooted (show conclude (.error e) s waiting = some c' from hn)
  | execute function k =>
    cases hn
    exact .inl (.inr rooted.cons)
  | reload image k =>
    simp only [perform] at hn
    split at hn <;> cases hn <;> exact .inl (.inr rooted)
  | _ =>
    cases hn
    exact .inl (.inr rooted)

/-- From a run in progress, a step keeps it in progress, or ends it with a fault, or is its return. -/
theorem Inside.next (h : c.Inside) (hn : c.next = some c') :
    c'.Inside ∨ (∃ e, c'.Over (.error e)) ∨
      ∃ frame executed next, c.task = .fetch frame executed next ∧ c.waiting = [] ∧
        (c.machine.turn frame executed next).1 = .returned ∧
        c' = ⟨{ c.session with machine := (c.machine.turn frame executed next).2 },
          .unwind frame.program frame.exitDepth (.ok ()), []⟩ := by
  obtain ⟨s, task, waiting⟩ := c
  rcases h with ⟨frame, executed, next, ht, hw⟩ | rooted
  · dsimp only at ht hw
    subst ht hw
    cases hn
    rcases fetch_inside frame executed next s with inside | ended | ⟨returned, hc⟩
    · exact .inl inside
    · exact .inr (.inl ended)
    · exact .inr (.inr ⟨frame, executed, next, rfl, rfl, returned, hc⟩)
  · dsimp only at rooted
    cases task with
    | execute number =>
      cases hn
      exact .inl (.inr (execute_rooted rooted number s))
    | fetch frame executed next =>
      cases hn
      exact .inl (.inr (fetch_rooted rooted frame executed next s))
    | unwind m exitDepth outcome =>
      cases hn
      refine .inl (.inr ?_)
      unfold unwind
      split <;> exact rooted
    | answer outcome =>
      cases waiting with
      | nil => cases hn
      | cons w waiting =>
        cases w with
        | program k =>
          cases hn
          rcases rooted.tail with ⟨⟨frame, executed, next, hw⟩, -⟩ | below
          · cases hw
          · exact .inl (.inr below)
        | run frame executed next => cases hn
        | execution m => cases hn
    | perform p =>
      rcases perform_inside rooted hn with inside | ended
      · exact .inl inside
      · exact .inr (.inl ended)

theorem Inside.deeper {v : Machine} (h : c.Inside) (orderly : c.Orderly v) : v.depth < c.depth := by
  obtain ⟨s, task, waiting⟩ := c
  have fits := orderly.fits
  rcases h with ⟨frame, executed, next, ht, hw⟩ | rooted
  · dsimp only at ht hw
    subst ht hw
    exact Nat.lt_of_le_of_lt fits.2.2.depth_le fits.2.1
  · dsimp only at rooted
    cases task with
    | execute number => exact Machine.Awaited.lt_depth fits rooted
    | answer outcome => exact Machine.Awaited.lt_depth fits rooted
    | perform p => exact Machine.Awaited.lt_depth fits.2 rooted
    | fetch frame executed next => exact Nat.lt_of_le_of_lt fits.2.2.depth_le fits.2.1
    | unwind m exitDepth outcome =>
      exact Nat.lt_of_lt_of_le (Machine.Awaited.lt_depth fits.2.2 rooted) fits.2.1

theorem Over.outcome_eq {outcome outcome' : Except RuntimeFault Unit} {s' : Session} {n : Nat}
    (h : c.Over outcome) (hn : after n c = some ⟨s', .answer outcome', []⟩) : outcome' = outcome := by
  obtain ⟨s, task, waiting⟩ := c
  obtain ⟨⟨m, exitDepth, ht⟩, hw⟩ := h
  dsimp only at ht hw
  subst ht hw
  obtain ⟨k, hk⟩ := unwind_reaches m exitDepth outcome s []
  have same := after_final hn rfl hk rfl
  simp only [mk.injEq, Task.answer.injEq, and_true] at same
  exact same.2

theorem exists_next {n : Nat} {d : Configuration} (h : after (n + 1) c = some d) :
    ∃ c', c.next = some c' ∧ after n c' = some d := by
  cases hc : c.next with
  | none =>
    rw [Nat.add_comm, after_add, after_succ, after_zero, Option.bind_some, hc] at h
    cases h
  | some c' => exact ⟨c', rfl, (after_of_next hc n).symm.trans h⟩

theorem Inside.exists_last {n : Nat} {d : Configuration} (h : c.Inside) (hn : after n c = some d)
    (hd : ¬ d.Inside) :
    ∃ k last left m, after k c = some last ∧ (∀ j ≤ k, ∀ e, after j c = some e → e.Inside) ∧
      last.next = some left ∧ ¬ left.Inside ∧ after m left = some d := by
  induction n generalizing c with
  | zero =>
    cases hn
    exact absurd h hd
  | succ n ih =>
    obtain ⟨c', hc, hn'⟩ := exists_next hn
    by_cases inside : c'.Inside
    · obtain ⟨k, last, left, m, hk, within, hl, outside, hm⟩ := ih inside hn'
      refine ⟨k + 1, last, left, m, (after_of_next hc k).trans hk, ?_, hl, outside, hm⟩
      intro j hj e he
      cases j with
      | zero =>
        cases he
        exact h
      | succ j =>
        rw [after_of_next hc] at he
        exact within j (Nat.le_of_succ_le_succ hj) e he
    · refine ⟨0, c, c', n, rfl, ?_, hc, inside, hn'⟩
      intro j hj e he
      obtain rfl : j = 0 := Nat.le_zero.mp hj
      cases he
      exact h

/-- An execution by a host that ends with the return of the function it started. The frame of that
function stands from its first statement to the last one, which is a return run in that frame; after it
there is nothing to run and nothing to leave. -/
structure OwnReturn (number : Nat) (s s' : Session) (first last left : Configuration) : Prop where
  enters : (start number s).next = some first
  deeper : first.depth = s.machine.depth + 1
  inside : ∃ n, after n first = some last ∧
    ∀ k ≤ n, ∀ c, after k first = some c → s.machine.depth < c.depth
  calls : last.machine.control.calls = first.machine.control.calls
  function : last.machine.control.function = number
  returns : ∃ frame executed index st, last.task = .fetch frame executed index ∧ last.waiting = [] ∧
    frame.program = s.machine.program ∧ s.machine.program.statements[index.toNat]? = some st ∧
    (Opcode.ofCode? st.op = some .done ∨ Opcode.ofCode? st.op = some .ret)
  leaves : last.next = some left
  reached : left.depth = s.machine.depth
  ended : left.Over (.ok ())
  ends : left.next = some ⟨s', .answer (.ok ()), []⟩

variable {number : Nat} {s s' : Session}

theorem start_cases (hx : s.machine.program.executable number = .ok .bytecode) :
    ∃ c, (start number s).next = some c ∧ ((∃ e, c.Over (.error e)) ∨
      c.Inside ∧ c.depth = s.machine.depth + 1 ∧ c.machine.control.function = number) := by
  refine ⟨_, rfl, ?_⟩
  simp only [start, execute, hx]
  rcases Machine.enter_cases (s.onMachine Machine.beginRun).machine s.machine.program
      (Machine.executable_bytecode hx) with ⟨e, he⟩ | ⟨f, -, -, -, result, store, -, he⟩
  · rw [he]
    exact .inl ⟨_, crash_over ..⟩
  · rw [he]
    cases result with
    | error e => exact .inl ⟨_, crash_over ..⟩
    | ok entry => exact .inr ⟨.inl ⟨_, _, _, rfl, rfl⟩, rfl, rfl⟩

theorem not_inside_answer (s' : Session) (outcome : Except RuntimeFault Unit) :
    ¬ Inside ⟨s', .answer outcome, []⟩ := by
  rintro (⟨frame, executed, next, ht, -⟩ | ⟨above, frame, executed, next, hw⟩)
  · cases ht
  · cases above <;> cases hw

/-- The turn with which the first run returns executes a return, and comes back to where the host
started it. -/
theorem Orderly.returned {v : Machine} {frame : RunFrame} {executed : Nat} {index : Int}
    (orderly : c.Orderly v) (ht : c.task = .fetch frame executed index) (hw : c.waiting = [])
    (returned : (c.machine.turn frame executed index).1 = .returned) :
    frame.program = v.program ∧ (c.machine.turn frame executed index).2.depth = v.depth ∧
      ∃ st, v.program.statements[index.toNat]? = some st ∧
        (Opcode.ofCode? st.op = some .done ∨ Opcode.ofCode? st.op = some .ret) := by
  have fits := orderly.fits
  rw [ht, hw] at fits
  obtain ⟨program, low, exit⟩ := fits
  have ground : frame.exitDepth = v.depth := exit
  have reached := Machine.turn_returned returned
  have down : (c.machine.turn frame executed index).2.depth < c.machine.depth := by
    rw [reached]
    exact low
  obtain ⟨st, store, fetched, returns, -, -⟩ := Machine.turn_leaves down
  rw [program] at fetched
  exact ⟨program, reached.trans ground, st, fetched, returns⟩

theorem next_unwind_here (m : Module) {s : Session} {exitDepth : Nat}
    (outcome : Except RuntimeFault Unit) (here : s.machine.depth = exitDepth) :
    next ⟨s, .unwind m exitDepth outcome, []⟩ =
      some ⟨s.onMachine Machine.endRun, .answer outcome, []⟩ := by
  have low : ¬ exitDepth < s.machine.depth := by
    rw [here]
    exact Nat.lt_irrefl _
  simp only [next, unwind, if_neg low]
  rfl

/-- Calls that are never fewer than in the first function, and come back to their number there, are
those of the first function. -/
theorem calls_again {v : Machine} {first last : Configuration} {k : Nat} (orderly : first.Orderly v)
    (deeper : first.depth = v.depth + 1) (hk : after k first = some last)
    (low : ∀ j ≤ k, ∀ e, after j first = some e → v.depth < e.depth)
    (top : last.depth ≤ v.depth + 1) :
    last.machine.control.calls = first.machine.control.calls ∧
      last.machine.control.function = first.machine.control.function := by
  have base : 0 < first.machine.control.calls.depth :=
    Nat.lt_of_lt_of_eq (Nat.succ_pos _) deeper.symm
  have kept (j : Nat) (hj : j ≤ k) (e : Configuration) (he : after j first = some e) :
      first.machine.control.calls.depth ≤ e.depth :=
    Nat.le_trans (Nat.le_of_eq deeper) (low j hj e he)
  obtain ⟨-, place, above⟩ :=
    within_after orderly ⟨first.machine.control.statement, .base⟩ base kept hk
  have here := above.eq_base (Nat.le_trans top (Nat.le_of_eq deeper.symm))
  rw [here]
  exact ⟨rfl, rfl⟩

/-- Where no builtin reloads, an execution that finishes ends with its own return. -/
theorem own_return_of_steady (hs : s.Steady)
    (hx : s.machine.program.executable number = .ok .bytecode) {n : Nat}
    (hn : after n (start number s) = some ⟨s', .answer (.ok ()), []⟩) :
    ∃ first last left, OwnReturn number s s' first last left := by
  cases n with
  | zero => cases hn
  | succ n =>
    obtain ⟨first, enters, started⟩ := start_cases hx
    have rest : after n first = some ⟨s', .answer (.ok ()), []⟩ :=
      (after_of_next enters n).symm.trans hn
    rcases started with ⟨e, ended⟩ | ⟨inside, deeper, function⟩
    · cases ended.outcome_eq rest
    · obtain ⟨k, last, left, m, hk, within, leaves, out, hm⟩ :=
        inside.exists_last rest (not_inside_answer s' (.ok ()))
      have orderly {j : Nat} {c : Configuration} (hc : after j first = some c) :
          c.Orderly s.machine := orderly_after (n := j + 1) hs ((after_of_next enters j).trans hc)
      have low (j : Nat) (hj : j ≤ k) (e : Configuration) (he : after j first = some e) :
          s.machine.depth < e.depth := (within j hj e he).deeper (orderly he)
      rcases (within k (Nat.le_refl k) last hk).next leaves with
          again | ⟨e, ended⟩ | ⟨frame, executed, index, ht, hw, returned, rfl⟩
      · exact absurd again out
      · cases ended.outcome_eq hm
      · obtain ⟨program, reached, st, fetched, returns⟩ := (orderly hk).returned ht hw returned
        have top : last.depth ≤ s.machine.depth + 1 := by
          rw [← reached]
          exact ((orderly hk).follows leaves).shift.depth_le
        obtain ⟨calls, same⟩ := calls_again (orderly (after_zero first)) deeper hk low top
        have ends := next_unwind_here frame.program (.ok ())
          (s := { last.session with machine := (last.machine.turn frame executed index).2 })
          (Machine.turn_returned returned)
        have final := after_final (m := 1) (after_of_next ends 0) rfl hm rfl
        exact ⟨first, last, _, enters, deeper, ⟨k, hk, low⟩, calls, same.trans function,
          ⟨frame, executed, index, st, ht, hw, program, fetched, returns⟩, leaves, reached,
          ⟨⟨_, _, rfl⟩, rfl⟩, ends.trans (congrArg some final)⟩

/-- Some step of an execution by a host puts another module in place. -/
def Reloaded (number : Nat) (s : Session) : Prop :=
  ∃ n c, after n (start number s) = some c ∧ c.reloads = true

theorem OwnReturn.after_first {first last left : Configuration}
    (h : OwnReturn number s s' first last left) (n : Nat) :
    after (n + 1) (start number s) = after n first := after_of_next h.enters n

theorem reloads_depth (h : c.reloads = true) (hn : c.next = some c') : c'.depth = 0 := by
  obtain ⟨s, task, waiting⟩ := c
  unfold reloads at h
  split at h
  · rename_i image k ht
    dsimp only at ht
    subst ht
    dsimp only [next, perform] at hn
    cases hr : s.machine.reload image with
    | error e =>
      rw [show (⟨s, .perform (.reload image k), waiting⟩ : Configuration).machine.reload image = _
        from hr] at h
      cases h
    | ok machine =>
      rw [hr] at hn
      cases hn
      unfold Machine.reload at hr
      cases hl : Machine.load image s.machine.capacity s.machine.heapBytes s.machine.settings with
      | error e =>
        rw [hl] at hr
        cases hr
      | ok v =>
        have idle := (Session.load_idle hl).1
        rw [hl] at hr
        cases hr
        change v.control.calls.depth = 0
        rw [idle]
        rfl
  · cases h

/-- An execution that ends with its own return has kept to its module: a reload takes away all frames,
that of the function among them. -/
theorem OwnReturn.not_reloaded {first last left : Configuration}
    (h : OwnReturn number s s' first last left) : ¬ Reloaded number s := by
  rintro ⟨n, c, hn, hr⟩
  cases n with
  | zero =>
    cases hn
    cases hr
  | succ j =>
    rw [h.after_first] at hn
    obtain ⟨k, hk, low⟩ := h.inside
    rcases Nat.lt_or_ge j k with before | beyond
    · have more : (after (j + 1) first).isSome :=
        after_isSome_of_le (n := k) (by rw [hk]; rfl) before
      obtain ⟨c', hc'⟩ := Option.isSome_iff_exists.mp more
      have deeper := low (j + 1) before c' hc'
      rw [after_succ, hn] at hc'
      rw [reloads_depth hr hc'] at deeper
      exact absurd deeper (Nat.not_lt_zero _)
    · obtain ⟨i, rfl⟩ := Nat.exists_eq_add_of_le beyond
      rw [after_add, hk, Option.bind_some] at hn
      obtain ⟨frame, executed, index, st, fetching, -⟩ := h.returns
      obtain ⟨⟨m, exitDepth, unwinding⟩, -⟩ := h.ended
      match i with
      | 0 =>
        cases hn
        unfold reloads at hr
        rw [fetching] at hr
        cases hr
      | 1 =>
        rw [after_of_next h.leaves, after_zero] at hn
        cases hn
        unfold reloads at hr
        rw [unwinding] at hr
        cases hr
      | 2 =>
        rw [after_of_next h.leaves, after_of_next h.ends] at hn
        cases hn
        cases hr
      | i + 3 =>
        rw [after_of_next h.leaves, after_of_next h.ends] at hn
        obtain ⟨d, hd, -⟩ := exists_next hn
        cases hd

theorem eq_of_steadied {task task' : Task} (h : task.steadied = task') (hp : ∀ p, task' ≠ .perform p) :
    task = task' := by
  subst h
  cases task with
  | perform p => exact absurd rfl (hp p.steadied)
  | _ => rfl

theorem Over.of_steadied {outcome : Except RuntimeFault Unit} (h : c.steadied.Over outcome) :
    c.Over outcome := by
  obtain ⟨⟨m, exitDepth, ht⟩, hw⟩ := h
  exact ⟨⟨m, exitDepth, eq_of_steadied ht fun p => Task.noConfusion⟩, List.map_eq_nil_iff.mp hw⟩

/-- An execution that finishes without putting another module in place ends with its own return. -/
theorem own_return_of_not_reloaded (kept : ¬ Reloaded number s)
    (hx : s.machine.program.executable number = .ok .bytecode) {n : Nat}
    (hn : after n (start number s) = some ⟨s', .answer (.ok ()), []⟩) :
    ∃ first last left, OwnReturn number s s' first last left := by
  have steps (k : Nat) : after k (start number s.steadied) =
      (after k (start number s)).map steadied := by
    apply after_steadied (c := start number s)
    intro j _ d hd
    cases hr : d.reloads with
    | false => rfl
    | true => exact absurd ⟨j, d, hd, hr⟩ kept
  have lift {k : Nat} {d' : Configuration} (hd : after k (start number s.steadied) = some d') :
      ∃ d, after k (start number s) = some d ∧ d.steadied = d' := by
    rw [steps] at hd
    exact Option.map_eq_some_iff.mp hd
  have finishes : after n (start number s.steadied) = some ⟨s'.steadied, .answer (.ok ()), []⟩ := by
    rw [steps, hn]
    rfl
  obtain ⟨first', last', left', own⟩ := own_return_of_steady s.steadied_steady hx finishes
  obtain ⟨k, hk, low⟩ := own.inside
  have reached : after (k + 1) (start number s.steadied) = some last' :=
    (own.after_first k).trans hk
  have passed : after (k + 2) (start number s.steadied) = some left' := by
    rw [after_succ, reached]
    exact own.leaves
  obtain ⟨first, hf, rfl⟩ := lift (k := 1) own.enters
  obtain ⟨last, hl, rfl⟩ := lift reached
  obtain ⟨left, he, rfl⟩ := lift passed
  have enters : (start number s).next = some first := hf
  have toFirst (j : Nat) : after (j + 1) (start number s) = after j first := after_of_next enters j
  refine ⟨first, last, left, enters, own.deeper, ⟨k, (toFirst k).symm.trans hl, ?_⟩, own.calls,
    own.function, ?_, ?_, own.reached, own.ended.of_steadied, ?_⟩
  · intro j hj c hc
    have hc' : after j first.steadied = some c.steadied := by
      rw [← own.after_first, steps, toFirst, hc]
      rfl
    exact low j hj c.steadied hc'
  · obtain ⟨frame, executed, index, st, ht, hw, rest⟩ := own.returns
    exact ⟨frame, executed, index, st, eq_of_steadied ht fun p => Task.noConfusion,
      List.map_eq_nil_iff.mp hw, rest⟩
  · rw [after_succ, hl] at he
    exact he
  · have further := steps (k + 3)
    rw [after_succ, passed, after_succ, he, Option.bind_some, Option.bind_some, own.ends] at further
    obtain ⟨⟨s'', task, waiting⟩, hd, hs⟩ := Option.map_eq_some_iff.mp further.symm
    have answered : task = .answer (.ok ()) :=
      eq_of_steadied (congrArg Configuration.task hs) fun p => Task.noConfusion
    have alone : waiting = [] := List.map_eq_nil_iff.mp (congrArg Configuration.waiting hs)
    subst answered alone
    have total : after (k + 3) (start number s) = some ⟨s'', .answer (.ok ()), []⟩ := by
      rw [after_succ, he]
      exact hd
    rw [hd, after_final total rfl hn rfl]

/-- An execution of a bytecode function that finishes ends with the return of the function it started,
unless a builtin has put another module in place. Then it never does. -/
theorem own_return_iff {fuel : Nat} (hx : s.machine.program.executable number = .ok .bytecode)
    (finished : Session.execute fuel number s = (.finished, s')) :
    (∃ first last left, OwnReturn number s s' first last left) ↔ ¬ Reloaded number s := by
  constructor
  · rintro ⟨first, last, left, own⟩
    exact own.not_reloaded
  · intro kept
    obtain ⟨n, hn⟩ := (execute_iff_steps number s s' (.ok ())).mp ⟨fuel, finished⟩
    exact own_return_of_not_reloaded kept hx hn

end Configuration

/-- A module whose first function calls a builtin and the second function, and then writes over a
word. -/
def markingImage : Text.Bytes :=
  { Builder.empty with
    statements := #[.null,
      Session.bareCall 28, Session.bareCall 29,
      ⟨(Opcode.store .float).code, 30, 31, 0⟩, ⟨Opcode.done.code, 28, 0, 0⟩,
      ⟨Opcode.done.code, 29, 0, 0⟩]
    functions := #[.null,
      { FunctionRecord.null with entry := 1 }, { FunctionRecord.null with entry := 5 },
      { FunctionRecord.null with entry := -1 }]
    globals := Builder.empty.globals ++ #[3, 2, 7, 0] : Builder }.bytes

theorem markingImage_loads : (Machine.load markingImage 0 0 {}).toOption.isSome := by decide +kernel

namespace Session

def marking (image : Text.Bytes) : Session :=
  ⟨(Machine.load markingImage 0 0 {}).toOption.get markingImage_loads,
    [⟨1, "swap", .reload image fun _ => .done⟩]⟩

theorem marking_executable :
    ((marking []).machine.program.executable 1).toOption.isSome := by decide +kernel

theorem marking_bytecode (image : Text.Bytes) :
    (marking image).machine.program.executable 1 = .ok .bytecode := by
  have bytecode : ((marking []).machine.program.executable 1).toOption.get marking_executable =
    .bytecode := by decide +kernel
  exact (eq_ok_get marking_executable).trans (congrArg Except.ok bytecode)

end Session

namespace Configuration

theorem marking_kept : ¬ Reloaded 1 (.marking []) := by
  have ended : (after 16 (start 1 (.marking []))).isSome = false := by decide +kernel
  have quiet : ∀ n < 16, (after n (start 1 (.marking []))).any reloads = false := by decide +kernel
  rintro ⟨n, c, hn, hr⟩
  rcases Nat.lt_or_ge n 16 with before | beyond
  · have calm := quiet n before
    rw [hn, Option.any_some, hr] at calm
    cases calm
  · have more := after_isSome_of_le (n := n) (by rw [hn]; rfl) beyond
    rw [ended] at more
    cases more

/-- Where the image is refused, the first function comes to its own return. -/
theorem marking_returns :
    (Session.marking []).machine.program.executable 1 = .ok .bytecode ∧
      ∃ s', Session.execute 12 1 (.marking []) = (.finished, s') ∧
        ∃ first last left, OwnReturn 1 (.marking []) s' first last left := by
  have finished : (Session.execute 12 1 (.marking [])).1 = .finished := by decide +kernel
  have ran : Session.execute 12 1 (.marking []) =
      (.finished, (Session.execute 12 1 (.marking [])).2) := by rw [← finished]
  refine ⟨Session.marking_bytecode [], _, ran, ?_⟩
  exact (own_return_iff (Session.marking_bytecode []) ran).mpr marking_kept

/-- Where the builtin puts the same module in place again, the execution finishes with the return of
the second function. The first one has not returned, and its word is not written. -/
theorem marking_again_stops_early :
    (Session.marking markingImage).machine.program.executable 1 = .ok .bytecode ∧
      ∃ s', Session.execute 12 1 (.marking markingImage) = (.finished, s') ∧
        s'.machine.store.memory.words[31]? = some 0 ∧
        ¬ ∃ first last left, OwnReturn 1 (.marking markingImage) s' first last left := by
  have finished : (Session.execute 12 1 (.marking markingImage)).1 = .finished := by decide +kernel
  have unmarked : (Session.execute 12 1 (.marking markingImage)).2.machine.store.memory.words[31]? =
    some 0 := by decide +kernel
  have swapped : (after 2 (start 1 (.marking markingImage))).any reloads = true := by decide +kernel
  have ran : Session.execute 12 1 (.marking markingImage) =
      (.finished, (Session.execute 12 1 (.marking markingImage)).2) := by rw [← finished]
  refine ⟨Session.marking_bytecode _, _, ran, unmarked, ?_⟩
  rintro ⟨first, last, left, own⟩
  obtain ⟨c, hc, hr⟩ := (Option.any_eq_true _ _).mp swapped
  exact own.not_reloaded ⟨2, c, hc, hr⟩

end Configuration
end GameBytecode
