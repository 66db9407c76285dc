import GameBytecode.Proofs.FaultOrigin
import GameBytecode.Proofs.SettingsChange
import GameBytecode.Proofs.StatementCount

/-!
The limit on statements only cuts runs short. Under a limit every execution ends; it reports the limit
exactly if so many statements have been run and another is due; and one that ends otherwise ends in
the same way under every higher limit and under none. Builtins neither execute functions nor look at
the limit.
-/
namespace GameBytecode

/-- The settings with another limit on statements, or none. -/
def Settings.limited (noExecLimit : Bool) (runawayBudget : Nat) (settings : Settings) : Settings :=
  { settings with noExecLimit, runawayBudget }

def Ending.fault? : Ending RuntimeFault → Option Fault
  | failed e => some e.kind
  | _ => none

/-- A host program that executes no function and does the same under every limit on statements. -/
def HostProgram.Heedless : HostProgram → Prop
  | done | fail _ => True
  | inspect k => ∀ v roster,
    (∀ off budget, k (v.under (Settings.limited off budget)) roster = k v roster) ∧
      (k v roster).Heedless
  | write _ _ k => ∀ result, (k result).Heedless
  | makeString _ k => ∀ r, (k r).Heedless
  | clearStrings k | setArgc _ k | setTracing _ k | emit _ k => k.Heedless
  | reload _ k => ∀ result, (k result).Heedless
  | register _ _ body k => body.Heedless ∧ k.Heedless
  | .execute _ _ => False

/-- No builtin executes a function or looks at the limit on statements. -/
def Session.Heedless (s : Session) : Prop := ∀ b ∈ s.builtins, b.body.Heedless

variable {off : Bool} {budget : Nat}

theorem Ending.failed_of_fault? {ending : Ending RuntimeFault} {kind : Fault}
    (h : ending.fault? = some kind) : ∃ e, ending = .failed e ∧ e.kind = kind := by
  cases ending with
  | failed e => exact ⟨e, rfl, Option.some.inj h⟩
  | finished => cases h
  | exhausted => cases h

theorem Ending.stoppedBy_iff {stops : Fault → Prop} {ending : Ending RuntimeFault} :
    ending.StoppedBy stops ↔ ∃ kind, ending.fault? = some kind ∧ stops kind := by
  constructor
  · intro stopped
    cases ending with
    | failed e => exact ⟨e.kind, rfl, stopped⟩
    | finished => exact stopped.elim
    | exhausted => exact stopped.elim
  · rintro ⟨kind, reported, stopped⟩
    obtain ⟨e, rfl, rfl⟩ := Ending.failed_of_fault? reported
    exact stopped

theorem Settings.limited_deadbeefLocals (off : Bool) (budget : Nat) (settings : Settings) :
    (settings.limited off budget).deadbeefLocals = settings.deadbeefLocals := rfl

theorem step_limited (settings : Settings) (m : Module) (index : Nat) (s : Statement) :
    step (settings.limited off budget) m index s = step settings m index s := by
  funext st
  simp only [step]
  cases Opcode.ofCode? s.op with
  | none => rfl
  | some op => cases op <;> rfl

namespace Machine

theorem reload_limited (v : Machine) (image : Text.Bytes) :
    (v.under (Settings.limited off budget)).reload image =
      (v.reload image).map (·.under (Settings.limited off budget)) :=
  have bounds (settings : Settings) :
      (settings.limited off budget).boundsCheck = settings.boundsCheck := rfl
  v.reload_under bounds (fun _ => rfl) (fun _ => rfl) image

theorem follow_budget (m : Module) (exitDepth : Nat) (limit limit' : Option Nat) (index : Nat)
    (v : Machine) (control : Control) :
    v.follow ⟨m, exitDepth, limit'⟩ index control = v.follow ⟨m, exitDepth, limit⟩ index control := by
  cases control <;> rfl

/-- Where neither of two limits has been reached, the turn is the same. -/
theorem turn_limited (m : Module) (exitDepth : Nat) {limit limit' : Option Nat} {executed : Nat}
    (within : limit.any (· ≤ executed) = false) (within' : limit'.any (· ≤ executed) = false)
    (next : Int) (v : Machine) :
    (v.under (Settings.limited off budget)).turn ⟨m, exitDepth, limit'⟩ executed next =
      ((v.turn ⟨m, exitDepth, limit⟩ executed next).1,
        (v.turn ⟨m, exitDepth, limit⟩ executed next).2.under (Settings.limited off budget)) := by
  simp only [turn, within, within', Bool.false_eq_true, if_false]
  split
  · rfl
  cases m.statements[next.toNat]? with
  | none => rfl
  | some st =>
    simp only [act_eq, record_settings, record_store, under_settings, under_store, step_limited]
    rw [record_under]
    generalize step v.settings m next.toNat st v.store = result
    obtain ⟨ended, store⟩ := result
    cases ended with
    | error e => rfl
    | ok control =>
      have followed := follow_under ((v.record m next.toNat).setStore store)
        (Settings.limited_deadbeefLocals off budget) ⟨m, exitDepth, limit⟩ next.toNat control
      rw [← follow_budget m exitDepth limit limit'] at followed
      exact followed

/-- A turn that reports a limit is at the limit of its run. -/
theorem FaultsWith.limit_of_runawayLoop {v : Machine} {frame : RunFrame} {executed r : Nat}
    {next : Int} (h : v.FaultsWith frame executed next (.runawayLoop r)) :
    frame.budget.any (· ≤ executed) = true ∧ r = frame.budget.getD 0 := by
  cases h with
  | limit reached => exact ⟨reached, rfl⟩
  | effect fetched h => exact ((step_ends _ _ _ _ _).2 _ h).elim
  | call h => exact h.elim
  | misplaced fetched called bytecode h =>
    obtain ⟨f, -, -, h⟩ := h
    cases h
  | leaving u size control h => exact (leave_origin h).elim

theorem turn_reached {frame : RunFrame} {executed : Nat}
    (reached : frame.budget.any (· ≤ executed) = true) (next : Int) (v : Machine) :
    v.turn frame executed next = (.fault (.runawayLoop (frame.budget.getD 0)), v) := by
  simp only [turn, reached, if_true]

end Machine

/-- Under a higher limit, or under none, a run goes on as it did, unless it is stopped by its own. -/
theorem RunFrame.opening_follows {settings : Settings} (limited : settings.noExecLimit = false)
    (higher : off = true ∨ settings.runawayBudget ≤ budget) (m : Module) (exitDepth : Nat) :
    (opening m exitDepth settings).Follows (Settings.limited off budget)
      (· = .runawayLoop settings.runawayBudget)
      (opening m exitDepth (settings.limited off budget)) := by
  intro executed next v
  have limit := Configuration.opening_budget limited m exitDepth
  by_cases reached : settings.runawayBudget ≤ executed
  · left
    have any : (opening m exitDepth settings).budget.any (· ≤ executed) = true := by
      rw [limit]
      exact decide_eq_true reached
    rw [Machine.turn_reached any, limit]
    exact ⟨_, rfl, rfl⟩
  · right
    apply Machine.turn_limited m exitDepth
    · rw [limited]
      exact decide_eq_false reached
    · cases off with
      | true => rfl
      | false =>
        have further : ¬ budget ≤ executed := by
          have higher := higher.resolve_left Bool.false_ne_true
          omega
        exact decide_eq_false further

namespace HostProgram

theorem Heedless.ignores {p : HostProgram} (h : p.Heedless) (off : Bool) (budget : Nat) :
    p.Ignores (Settings.limited off budget) := by
  induction p with
  | done => trivial
  | fail e => trivial
  | inspect k ih => exact fun v roster => ⟨(h v roster).1 off budget, ih v roster (h v roster).2⟩
  | write address words k ih => exact fun result => ih result (h result)
  | makeString bytes k ih => exact fun r => ih r (h r)
  | clearStrings k ih => exact ih h
  | setArgc argc k ih => exact ih h
  | setTracing on k ih => exact ih h
  | emit line k ih => exact ih h
  | reload image k ih =>
    exact ⟨fun v => v.reload_limited image, fun result => ih result (h result)⟩
  | register number name body k body_ih ih => exact ⟨body_ih h.1, ih h.2⟩
  | execute function k ih => exact h.elim

end HostProgram

namespace Session

theorem Heedless.builtin {s : Session} (h : s.Heedless) {number : Nat} {body : HostProgram}
    (hb : s.builtin? number = some body) : body.Heedless := by
  obtain ⟨b, mem, rfl⟩ := mem_of_builtin? hb
  exact h b mem

theorem Heedless.register {s : Session} (h : s.Heedless) {b : Builtin} (hb : b.body.Heedless) :
    (s.register b).Heedless := by
  intro c hc
  rcases mem_register hc with rfl | hc
  · exact hb
  · exact h c hc

theorem Heedless.ignores {s : Session} (h : s.Heedless) (off : Bool) (budget : Nat) :
    s.Ignores (Settings.limited off budget) :=
  fun b hb => (h b hb).ignores off budget

/-- An execution that does not report the limit ends in the same way, with the same machine but for
the limit, under every higher limit and under none. -/
theorem execute_limited {s : Session} (hs : s.Heedless)
    (limited : s.machine.settings.noExecLimit = false)
    (higher : off = true ∨ s.machine.settings.runawayBudget ≤ budget) (fuel number : Nat)
    (within : (execute fuel number s).1.fault? ≠
      some (.runawayLoop s.machine.settings.runawayBudget)) :
    execute fuel number (s.under (Settings.limited off budget)) =
      ((execute fuel number s).1,
        (execute fuel number s).2.under (Settings.limited off budget)) := by
  have follows (m : Module) (exitDepth : Nat) := RunFrame.opening_follows limited higher m exitDepth
  have simulated := execute_under (Settings.limited_deadbeefLocals off budget) follows
    (hs.ignores off budget) fuel number
  apply simulated.resolve_left
  rw [Ending.stoppedBy_iff]
  rintro ⟨kind, reported, rfl⟩
  exact within reported

end Session

/-- A heedless host program comes to an end, with a session whose builtins are heedless. -/
theorem HostProgram.Heedless.ends {x : Nat → Session → Ending RuntimeFault × Session}
    {p : HostProgram} (hp : p.Heedless) {s : Session} (hs : s.Heedless) :
    (p.perform x s).1 ≠ .exhausted ∧ (p.perform x s).2.Heedless := by
  induction p generalizing s with
  | done => exact ⟨by simp [perform], hs⟩
  | fail e => exact ⟨by simp [perform], hs⟩
  | inspect k ih => exact ih _ _ (hp _ _).2 hs
  | write address words k ih => exact ih _ (hp _) (by exact hs)
  | makeString bytes k ih => exact ih _ (hp _) (by exact hs)
  | clearStrings k ih => exact ih hp (by exact hs)
  | setArgc argc k ih => exact ih hp (by exact hs)
  | setTracing on k ih => exact ih hp (by exact hs)
  | emit line k ih => exact ih hp (by exact hs)
  | reload image k ih =>
    simp only [perform]
    cases s.machine.reload image with
    | error e => exact ih _ (hp _) hs
    | ok machine => exact ih _ (hp _) (by exact hs)
  | register number name body k _ ih => exact ih hp.2 (hs.register hp.1)
  | execute function k ih => exact hp.elim

namespace Session

@[simp] theorem failWith_ended (m : Module) (kind : Fault) (s : Session) :
    (failWith m kind s).1 ≠ .exhausted := by
  simp [failWith]

theorem Heedless.called {x : Nat → Session → Ending RuntimeFault × Session} {s : Session}
    (hs : s.Heedless) (m : Module) (number : UInt32) :
    (located m (callBuiltin x number s)).1 ≠ .exhausted ∧
      (located m (callBuiltin x number s)).2.Heedless := by
  have ends : (callBuiltin x number s).1 ≠ .exhausted ∧ (callBuiltin x number s).2.Heedless := by
    simp only [callBuiltin]
    cases hb : s.builtin? number.toNat with
    | none => exact ⟨by simp, hs⟩
    | some body => exact (hs.builtin hb).ends hs
  generalize callBuiltin x number s = result at ends
  obtain ⟨ending, s'⟩ := result
  cases ending with
  | finished => exact ⟨by simp [located], ends.2⟩
  | failed e => exact ⟨by simp [located], ends.2⟩
  | exhausted => exact absurd rfl ends.1

/-- A run comes to an end within the statements left to it. -/
theorem interpret_ends {frame : RunFrame} (limit : frame.budget = some budget) (fuel : Nat)
    {executed : Nat} (next : Int) {s : Session} (hs : s.Heedless)
    (left : budget ≤ executed + fuel) :
    (interpret (fuel + 1) frame executed next s).1 ≠ .exhausted := by
  induction fuel generalizing executed next s with
  | zero =>
    have reached : frame.budget.any (· ≤ executed) = true := by
      rw [limit]
      exact decide_eq_true left
    obtain ⟨v, builtins⟩ := s
    simp only [interpret, Machine.turn_reached reached]
    simp
  | succ fuel ih =>
    obtain ⟨v, builtins⟩ := s
    have later : budget ≤ executed + 1 + fuel := by omega
    rw [interpret]
    cases v.turn frame executed next with
    | mk turn u =>
      cases turn with
      | go next' => exact ih next' (by exact hs) later
      | returned => simp
      | fault kind => simp
      | builtin n next' =>
        obtain ⟨ended, heedless⟩ := Heedless.called (x := execute (fuel + 1)) (s := ⟨u, builtins⟩) hs
          frame.program n
        dsimp only
        cases hl : located frame.program (callBuiltin (execute (fuel + 1)) n ⟨u, builtins⟩) with
        | mk ending s' =>
          rw [hl] at ended heedless
          cases ending with
          | finished => exact ih next' heedless later
          | failed e => simp
          | exhausted => exact absurd rfl ended

theorem execute_ends {s : Session} (hs : s.Heedless)
    (limited : s.machine.settings.noExecLimit = false) (number : Nat) :
    (execute (s.machine.settings.runawayBudget + 2) number s).1 ≠ .exhausted := by
  have begun : (s.onMachine Machine.beginRun).Heedless := hs
  simp only [execute]
  cases hx : s.machine.program.executable number with
  | error e => simp
  | ok callee =>
    cases callee with
    | builtin n => exact (begun.called s.machine.program n).1
    | bytecode =>
      have kin := (Machine.enter_above (s.onMachine Machine.beginRun).machine s.machine.program
        (Machine.executable_bytecode hx)).1
      dsimp only
      cases he : (s.onMachine Machine.beginRun).machine.enter s.machine.program number with
      | mk result u =>
        rw [he] at kin
        cases result with
        | error e => simp
        | ok first =>
          have settings : u.settings = s.machine.settings := kin.settings
          have limit : (RunFrame.opening s.machine.program
              (s.onMachine Machine.beginRun).machine.depth u.settings).budget =
              some s.machine.settings.runawayBudget := by
            rw [settings]
            exact Configuration.opening_budget limited _ _
          exact interpret_ends limit s.machine.settings.runawayBudget first
            (s := { s.onMachine Machine.beginRun with machine := u }) hs (by omega)

end Session
namespace Configuration
variable {c c' : Configuration} {s : Session} {waiting : List Waiting} {count : Nat}

/-- How an execution stands in which no builtin starts another, after a number of statements. -/
inductive Stage (budget count : Nat) : Task → List Waiting → Prop where
  | running {frame : RunFrame} {next : Int} (limit : frame.budget = some budget) :
      Stage budget count (.fetch frame count next) []
  | called {frame : RunFrame} {next : Int} {p : HostProgram} (limit : frame.budget = some budget)
      (heedless : p.Heedless) : Stage budget count (.perform p) [.run frame count next]
  | direct {m : Module} {p : HostProgram} (heedless : p.Heedless) :
      Stage budget count (.perform p) [.execution m]
  | unwinding (m : Module) (exitDepth : Nat) (outcome : Except RuntimeFault Unit) :
      Stage budget count (.unwind m exitDepth outcome) []
  | answered (outcome : Except RuntimeFault Unit) : Stage budget count (.answer outcome) []

/-- The execution has run a number of statements within its limit. -/
structure Staged (budget count : Nat) (c : Configuration) : Prop where
  heedless : c.session.Heedless
  within : count ≤ budget
  stage : Stage budget count c.task c.waiting

theorem turn_of_not_runs {frame : RunFrame} {executed : Nat} {next : Int}
    (h : runsStatement ⟨s, .fetch frame executed next, waiting⟩ = false) :
    ∃ kind v, s.machine.turn frame executed next = (.fault kind, v) := by
  simp only [Machine.turn]
  split
  · exact ⟨_, _, rfl⟩
  split
  · exact ⟨_, _, rfl⟩
  rename_i within nonnegative
  cases fetched : frame.program.statements[next.toNat]? with
  | none => exact ⟨_, _, rfl⟩
  | some st =>
    have inside := (Array.getElem?_eq_some_iff.mp fetched).1
    simp only [runsStatement, Bool.and_eq_false_iff, Bool.not_eq_false', decide_eq_false_iff_not] at h
    rcases h with (h | h) | h
    · exact absurd h within
    · exact absurd (Int.not_lt.mp nonnegative) h
    · exact absurd inside h

theorem Staged.fetch {frame : RunFrame} {executed : Nat} {next : Int}
    (h : Staged budget count ⟨s, .fetch frame executed next, waiting⟩) :
    Staged budget (count + (runsStatement ⟨s, .fetch frame executed next, waiting⟩).toNat)
      (fetch frame executed next s waiting) := by
  obtain ⟨heedless, within, stage⟩ := h
  cases stage with
  | running limit =>
    have spent := runsStatement_left s [] count next limit
    cases ht : s.machine.turn frame count next with
    | mk turn v =>
      cases runs : runsStatement ⟨s, .fetch frame count next, []⟩ with
      | false =>
        obtain ⟨kind, u, faulted⟩ := turn_of_not_runs runs
        rw [ht] at faulted
        cases faulted
        have crashed : fetch frame count next s [] =
            crash frame.program frame.exitDepth kind { s with machine := v } [] := by
          simp only [Configuration.fetch, ht]
        rw [crashed]
        exact ⟨heedless, within, .unwinding ..⟩
      | true =>
        rw [runs] at spent
        rw [Bool.toNat_true] at spent ⊢
        have fits : count + 1 ≤ budget := by omega
        rcases fetch_cases ht [] with ⟨next', -, hf⟩ | ⟨n, next', body, -, hb, hf⟩ | ⟨-, hf⟩ |
          ⟨kind, -, hf⟩ <;> rw [hf]
        · exact ⟨heedless, fits, .running limit⟩
        · exact ⟨heedless, fits, .called limit (Session.Heedless.builtin heedless hb)⟩
        · exact ⟨heedless, fits, .unwinding ..⟩
        · exact ⟨heedless, fits, .unwinding ..⟩

theorem perform_heedless {p : HostProgram} (hp : p.Heedless) (hs : s.Heedless)
    (hn : perform s waiting p = some c') :
    (∃ outcome, p = .ofOutcome outcome ∧ conclude outcome s waiting = some c') ∨
      ∃ s' p', c' = ⟨s', .perform p', waiting⟩ ∧ s'.Heedless ∧ p'.Heedless := by
  cases p with
  | done => exact .inl ⟨.ok (), rfl, hn⟩
  | fail e => exact .inl ⟨.error e, rfl, hn⟩
  | inspect k =>
    cases hn
    exact .inr ⟨_, _, rfl, hs, (hp _ _).2⟩
  | write address words k =>
    cases hn
    exact .inr ⟨_, _, rfl, hs, hp _⟩
  | makeString bytes k =>
    cases hn
    exact .inr ⟨_, _, rfl, hs, hp _⟩
  | reload image k =>
    simp only [perform] at hn
    split at hn <;> cases hn <;> exact .inr ⟨_, _, rfl, hs, hp _⟩
  | register number name body k =>
    cases hn
    exact .inr ⟨_, _, rfl, hs.register hp.1, hp.2⟩
  | execute number k => exact hp.elim
  | _ =>
    cases hn
    exact .inr ⟨_, _, rfl, hs, hp⟩

theorem Staged.next (h : Staged budget count c) (hn : c.next = some c') :
    Staged budget (count + (runsStatement c).toNat) c' := by
  obtain ⟨s, task, waiting⟩ := c
  cases task with
  | fetch frame executed next =>
    cases hn
    exact h.fetch
  | execute number => cases h.stage
  | unwind m exitDepth outcome =>
    obtain ⟨heedless, within, stage⟩ := h
    cases stage
    cases hn
    simp only [unwind]
    split
    · exact ⟨heedless, within, .unwinding ..⟩
    · exact ⟨heedless, within, .answered _⟩
  | answer outcome =>
    obtain ⟨heedless, within, stage⟩ := h
    cases stage
    cases hn
  | perform p =>
    obtain ⟨heedless, within, stage⟩ := h
    cases stage with
    | called limit hp =>
      rcases perform_heedless hp heedless hn with ⟨outcome, rfl, hc⟩ | ⟨s', p', rfl, hs, hp'⟩
      · cases outcome <;> cases hc
        · exact ⟨heedless, within, .unwinding ..⟩
        · exact ⟨heedless, within, .running limit⟩
      · exact ⟨hs, within, .called limit hp'⟩
    | direct hp =>
      rcases perform_heedless hp heedless hn with ⟨outcome, rfl, hc⟩ | ⟨s', p', rfl, hs, hp'⟩
      · cases hc
        exact ⟨heedless, within, .answered _⟩
      · exact ⟨hs, within, .direct hp'⟩

theorem execute_staged (hs : s.Heedless) (limited : s.machine.settings.noExecLimit = false)
    (number : Nat) :
    Staged s.machine.settings.runawayBudget 0 (execute number s []) := by
  have settings : (execute number s []).machine.settings = s.machine.settings :=
    next_settings (c := start number s) rfl
  rcases execute_cases number s [] with ⟨first, v, -, -, he⟩ | ⟨n, body, -, hb, he⟩ |
    ⟨kind, he, -⟩ | ⟨kind, v, -, -, he⟩ <;> rw [he] at settings ⊢ <;>
    refine ⟨hs, Nat.zero_le _, ?_⟩
  · have same : v.settings = s.machine.settings := settings
    rw [same]
    exact .running (opening_budget limited _ _)
  · exact .direct (hs.builtin hb)
  · exact .answered _
  · exact .unwinding ..

section counted
variable (hs : s.Heedless) (limited : s.machine.settings.noExecLimit = false) {number : Nat}
include hs limited

/-- After its first step an execution has run as many statements as have been counted. -/
theorem staged_after {n : Nat} (hc : after (n + 1) (start number s) = some c) :
    Staged s.machine.settings.runawayBudget (statementsRun (n + 1) (start number s)) c := by
  induction n generalizing c with
  | zero =>
    cases hc
    exact execute_staged hs limited number
  | succ n ih =>
    rw [after_succ] at hc
    obtain ⟨d, hd, hn⟩ := Option.bind_eq_some_iff.mp hc
    have count : statementsRun (n + 1 + 1) (start number s) =
        statementsRun (n + 1) (start number s) + (runsStatement d).toNat := by
      simp only [statementsRun]
      rw [tally_succ, hd, Option.any_some]
    rw [count]
    exact (ih hd).next hn

/-- An execution runs no more statements than its limit. -/
theorem statementsRun_le_limit (n : Nat) :
    statementsRun n (start number s) ≤ s.machine.settings.runawayBudget := by
  induction n with
  | zero => exact Nat.zero_le _
  | succ n ih =>
    cases hc : after (n + 1) (start number s) with
    | some c => exact (staged_after hs limited hc).within
    | none =>
      -- The statement counted last is one of a configuration that has a next one.
      simp only [statementsRun] at ih ⊢
      rw [tally_succ]
      cases hd : after n (start number s) with
      | none => exact ih
      | some d =>
        rw [after_succ, hd] at hc
        rw [Option.any_some, (counted_next hc).1]
        exact ih

theorem fetch_counts {n : Nat} {frame : RunFrame} {executed : Nat} {next : Int}
    (hc : after n (start number s) = some c) (task : c.task = .fetch frame executed next) :
    frame.budget = some s.machine.settings.runawayBudget ∧
      executed = statementsRun n (start number s) ∧ c.waiting = [] := by
  cases n with
  | zero =>
    cases hc
    cases task
  | succ n =>
    have stage := (staged_after hs limited hc).stage
    rw [task] at stage
    generalize c.waiting = waiting at stage
    cases stage with
    | running limit => exact ⟨limit, rfl, rfl⟩

end counted

/-- Another statement is due after so many. -/
def Due (count number : Nat) (s : Session) : Prop :=
  ∃ n c frame executed next, after n (start number s) = some c ∧
    c.task = .fetch frame executed next ∧ statementsRun n (start number s) = count

/-- A builtin fails with a fault of its own accord. -/
def Failing (kind : Fault) (number : Nat) (s : Session) : Prop :=
  ∃ n c, after n (start number s) = some c ∧ c.task = .perform (.fail kind)

/-- An execution that unwinds with a fault, or answers with one, fails with it. -/
theorem fails_of_fault {number n : Nat} (hc : after n (start number s) = some c)
    (alone : c.waiting = []) {kind : Fault} (hf : c.task.fault? = some kind) :
    ∃ fuel, (Session.execute fuel number s).1.fault? = some kind := by
  have answered {k : Nat} {s' : Session} {e : RuntimeFault} (he : e.kind = kind)
      (h : after k (start number s) = some ⟨s', .answer (.error e), []⟩) :
      ∃ fuel, (Session.execute fuel number s).1.fault? = some kind := by
    obtain ⟨fuel, ran⟩ := (execute_iff_steps number s s' (.error e)).mpr ⟨k, h⟩
    refine ⟨fuel, ?_⟩
    rw [ran, ← he]
    rfl
  obtain ⟨s', task, waiting⟩ := c
  dsimp only at alone hf
  subst alone
  cases task with
  | unwind m exitDepth outcome =>
    cases outcome with
    | ok _ => cases hf
    | error e =>
      obtain ⟨k, hk⟩ := unwind_reaches m exitDepth (.error e) s' []
      have reached := after_add (start number s) n k
      rw [hc, Option.bind_some, hk] at reached
      exact answered (Option.some.inj hf) reached
  | answer outcome =>
    cases outcome with
    | ok _ => cases hf
    | error e => exact answered (Option.some.inj hf) hc
  | _ => cases hf

theorem fails_of_due (hs : s.Heedless) (limited : s.machine.settings.noExecLimit = false)
    {number : Nat} (due : Due s.machine.settings.runawayBudget number s) :
    ∃ fuel, (Session.execute fuel number s).1.fault? =
      some (.runawayLoop s.machine.settings.runawayBudget) := by
  obtain ⟨n, ⟨s', task, waiting⟩, frame, executed, next, hc, rfl, count⟩ := due
  obtain ⟨limit, executed_eq, alone⟩ := fetch_counts hs limited hc rfl
  dsimp only at alone
  subst alone
  have reached : frame.budget.any (· ≤ executed) = true := by
    rw [limit, executed_eq, count]
    exact decide_eq_true (Nat.le_refl _)
  have stopped := Machine.turn_reached reached next s'.machine
  rw [limit, Option.getD_some] at stopped
  have hn : (⟨s', .fetch frame executed next, []⟩ : Configuration).next =
      some (crash frame.program frame.exitDepth (.runawayLoop s.machine.settings.runawayBudget)
        s' []) := by
    simp only [Configuration.next, fetch, stopped]
  have crashed := after_succ n (start number s)
  rw [hc, Option.bind_some, hn] at crashed
  exact fails_of_fault crashed rfl rfl

theorem fails_of_failing (hs : s.Heedless) (limited : s.machine.settings.noExecLimit = false)
    {number : Nat} {kind : Fault} (failing : Failing kind number s) :
    ∃ fuel, (Session.execute fuel number s).1.fault? = some kind := by
  obtain ⟨n, ⟨s', task, waiting⟩, hc, task_eq⟩ := failing
  dsimp only at task_eq
  subst task_eq
  cases n with
  | zero => cases hc
  | succ n =>
    have stage := (staged_after hs limited hc).stage
    have reached {c' : Configuration}
        (hn : (⟨s', .perform (.fail kind), waiting⟩ : Configuration).next = some c') :
        after (n + 2) (start number s) = some c' := by
      rw [after_succ, hc, Option.bind_some, hn]
    cases stage with
    | called limit hp => exact fails_of_fault (reached rfl) rfl rfl
    | direct hp => exact fails_of_fault (reached rfl) rfl rfl

/-- An execution reports a limit if and only if that is its own, so many statements have been run and
another is due, or if a builtin fails with that fault. -/
theorem reports_limit_iff (hs : s.Heedless) (limited : s.machine.settings.noExecLimit = false)
    (number r : Nat) :
    (∃ fuel, (Session.execute fuel number s).1.fault? = some (.runawayLoop r)) ↔
      r = s.machine.settings.runawayBudget ∧ Due r number s ∨
        Failing (.runawayLoop r) number s := by
  constructor
  · rintro ⟨fuel, reported⟩
    obtain ⟨e, ran, he⟩ := Ending.failed_of_fault? reported
    obtain ⟨n, hn⟩ := (execute_iff_steps number s (Session.execute fuel number s).2 (.error e)).mp
      ⟨fuel, Prod.ext ran rfl⟩
    obtain ⟨k, -, d, hd, raised⟩ := fault_raised hn (congrArg some he)
    cases raised with
    | executing task origin =>
      rcases origin with origin | ⟨-, f, -, -, origin⟩
      · exact origin.elim
      · cases origin
    | builtin task => exact .inr ⟨k, d, hd, task⟩
    | fetching task origin =>
      obtain ⟨limit, executed_eq, -⟩ := fetch_counts hs limited hd task
      obtain ⟨reached, rfl⟩ := origin.limit_of_runawayLoop
      have below : statementsRun k (start number s) ≤ s.machine.settings.runawayBudget :=
        statementsRun_le_limit hs limited k
      rw [limit] at reached ⊢
      have least := of_decide_eq_true reached
      refine .inl ⟨rfl, k, d, _, _, _, hd, task, ?_⟩
      rw [executed_eq] at least
      exact Nat.le_antisymm below least
  · rintro (⟨rfl, due⟩ | failing)
    · exact fails_of_due hs limited due
    · exact fails_of_failing hs limited failing

end Configuration

namespace Session
open GameBytecode.Configuration

/-- The limit only cuts executions short. Under it every execution comes to an outcome, in no more
statements; it reports a limit exactly if that is its own, so many statements have been run and another
is due, or if a builtin fails with that fault; and one that comes to anything else comes to the same,
with the same machine, under every higher limit and under none. -/
theorem limit_cuts_short {s : Session} (hs : s.Heedless)
    (limited : s.machine.settings.noExecLimit = false) (number : Nat) :
    (∃ fuel outcome s', execute fuel number s = (.ofOutcome outcome, s')) ∧
    (∀ n, statementsRun n (start number s) ≤ s.machine.settings.runawayBudget) ∧
    (∀ r, (∃ fuel, (execute fuel number s).1.fault? = some (.runawayLoop r)) ↔
      r = s.machine.settings.runawayBudget ∧ Due r number s ∨
        Failing (.runawayLoop r) number s) ∧
    ∀ off budget, (off = true ∨ s.machine.settings.runawayBudget ≤ budget) →
      ∀ fuel, (execute fuel number s).1.fault? ≠
          some (.runawayLoop s.machine.settings.runawayBudget) →
        execute fuel number (s.under (Settings.limited off budget)) =
          ((execute fuel number s).1,
            (execute fuel number s).2.under (Settings.limited off budget)) := by
  refine ⟨?_, statementsRun_le_limit hs limited, reports_limit_iff hs limited number,
    fun off budget higher fuel => execute_limited hs limited higher fuel number⟩
  have ends := execute_ends hs limited number
  cases he : execute (s.machine.settings.runawayBudget + 2) number s with
  | mk ending s' =>
    rw [he] at ends
    cases ending with
    | finished => exact ⟨_, .ok (), s', he⟩
    | failed e => exact ⟨_, .error e, s', he⟩
    | exhausted => exact absurd rfl ends

/-- A module whose first function calls a builtin again and again. -/
def tickingImage : Text.Bytes :=
  { Builder.empty with
    statements := #[.null, bareCall 28, ⟨Opcode.goto.code, 0xffff, 0, 0⟩]
    functions := #[.null, { FunctionRecord.null with entry := 1 },
      { FunctionRecord.null with entry := -1 }]
    globals := Builder.empty.globals ++ #[2] : Builder }.bytes

theorem tickingImage_loads :
    (Machine.load tickingImage 0 0 { runawayBudget := 5 }).toOption.isSome := by decide +kernel

def ticking : Session :=
  ⟨(Machine.load tickingImage 0 0 { runawayBudget := 5 }).toOption.get tickingImage_loads,
    [⟨1, "tick", .inspect fun v _ =>
      if v.depth = 0 then .fail .nullFunction else .makeString [0x74] fun _ => .done⟩]⟩

theorem ticking_heedless : ticking.Heedless := by
  intro b hb
  rw [List.mem_singleton.mp hb]
  intro v roster
  refine ⟨fun _ _ => rfl, ?_⟩
  dsimp only
  split
  · trivial
  · exact fun _ => trivial

theorem ticking_limited : ticking.machine.settings.noExecLimit = false := by decide +kernel

theorem ticking_reports : (execute 7 1 ticking).1.fault? = some (.runawayLoop 5) := by
  decide +kernel

theorem ticking_cut_short :
    ticking.Heedless ∧ ticking.machine.settings.noExecLimit = false ∧
      (∃ fuel outcome s', execute fuel 1 ticking = (.ofOutcome outcome, s')) ∧
      (∀ n, statementsRun n (start 1 ticking) ≤ ticking.machine.settings.runawayBudget) ∧
      (5 = ticking.machine.settings.runawayBudget ∧ Due 5 1 ticking ∨
        Failing (.runawayLoop 5) 1 ticking) :=
  have cut := limit_cuts_short ticking_heedless ticking_limited 1
  ⟨ticking_heedless, ticking_limited, cut.1, cut.2.1, (cut.2.2.1 5).mp ⟨7, ticking_reports⟩⟩

end Session
end GameBytecode
