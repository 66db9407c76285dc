import GameBytecode.Proofs.ArenaSlots
import GameBytecode.Proofs.StepCases
import GameBytecode.Proofs.WithoutReload

/-!
How many executions can be in progress at a time, one within another. Each run of a bytecode function
has a frame of its own on the calls, and these are limited. An execution of a builtin takes no frame,
and a builtin that puts another module in place takes the frames from the runs that wait for it.
-/
namespace GameBytecode

namespace Waiting

/-- How many of those who wait are runs, which wait for builtins. -/
def runs : List Waiting → Nat
  | [] => 0
  | run .. :: waiting => runs waiting + 1
  | program _ :: waiting | execution _ :: waiting => runs waiting

/-- How many of those who wait are executions of builtins. -/
def executions : List Waiting → Nat
  | [] => 0
  | execution _ :: waiting => executions waiting + 1
  | program _ :: waiting | run .. :: waiting => executions waiting

end Waiting

/-- An execution that is asked for, or a run. -/
def Task.running : Task → Nat
  | execute _ | fetch .. | unwind .. => 1
  | _ => 0

/-- An execution that has been asked for and has not begun. -/
def Task.asked : Task → Nat
  | execute _ => 1
  | _ => 0

namespace Configuration

/-- How many executions in progress are runs, with one that has been asked for. -/
def runs (c : Configuration) : Nat := Waiting.runs c.waiting + c.task.running

/-- How many executions in progress are those of builtins. -/
def builtinRuns (c : Configuration) : Nat := Waiting.executions c.waiting

def inProgress (c : Configuration) : Nat := c.runs + c.builtinRuns

/-- How many runs are in progress that were so when a module was last put in place. -/
def stranded : Nat → Configuration → Nat
  | 0, _ => 0
  | n + 1, c =>
    match after n c, after (n + 1) c with
    | some d, some d' => if d.reloads then d'.runs else min (stranded n c) d'.runs
    | _, _ => 0

end Configuration

namespace Machine
variable {v w : Machine} {m : Module} {settings : Settings}

/-- The calls keep to the limit of the settings. -/
structure Stacked (settings : Settings) (v : Machine) : Prop where
  configured : v.settings = settings
  limit : v.control.calls.limit = settings.maxStackDepth
  depth : v.depth ≤ settings.maxStackDepth

theorem leave_limit (v : Machine) (m : Module) :
    (v.leave m).2.control.calls.limit = v.control.calls.limit := by
  unfold leave
  cases hp : v.control.calls.pop with
  | error e => rfl
  | ok popped =>
    obtain ⟨frame, calls⟩ := popped
    have restored := restoreLocals_calls { v with control.calls := calls } m
    dsimp only
    rw [restored]
    unfold CallStack.pop at hp
    split at hp
    · cases hp
    · cases hp
      rfl

theorem Stacked.of_control (h : v.Stacked settings) (same : w.settings = v.settings)
    (control : w.control = v.control) : w.Stacked settings := by
  refine ⟨same.trans h.configured, ?_, ?_⟩
  · rw [control]
    exact h.limit
  · unfold Machine.depth
    rw [control]
    exact h.depth

theorem Stacked.leave (h : v.Stacked settings) (m : Module) : (v.leave m).2.Stacked settings := by
  refine ⟨(leave_kin v m).settings.trans h.configured, (leave_limit v m).trans h.limit, ?_⟩
  rw [leave_depth]
  exact Nat.le_trans (Nat.sub_le ..) h.depth

theorem Stacked.shift (h : v.Stacked settings) (same : w.settings = v.settings)
    (shift : v.Shift m w) : w.Stacked settings := by
  refine ⟨same.trans h.configured, ?_, ?_⟩
  · cases shift with
    | stay statement control =>
      rw [control]
      exact h.limit
    | enter statement number f enterable frame room control =>
      rw [control]
      exact h.limit
    | leave statement u size control after =>
      rw [after, leave_limit, control]
      exact h.limit
  · have limit := h.limit
    have within := h.depth
    cases shift with
    | stay statement control =>
      unfold Machine.depth
      rw [control]
      exact within
    | enter statement number f enterable frame room control =>
      have room := of_decide_eq_true frame
      unfold Machine.depth
      rw [control, ← limit]
      exact room
    | leave statement u size control after =>
      rw [after, leave_depth]
      unfold Machine.depth at within ⊢
      rw [control]
      exact Nat.le_trans (Nat.sub_le ..) within

theorem load_stacked {image : Text.Bytes} {capacity heapBytes : Nat}
    (h : load image capacity heapBytes settings = .ok v) : v.Stacked settings := by
  obtain ⟨-, -, same, control, -⟩ := load_ok h
  refine ⟨same, ?_, ?_⟩
  · rw [control]
    rfl
  · unfold depth
    rw [control]
    exact Nat.zero_le _

end Machine

/-- Of those who wait at a depth, every run does so above the depth at which it ends, but for a number
of the outermost ones. -/
inductive Standing (bare : Nat) : Nat → List Waiting → Prop where
  | bare {depth : Nat} {waiting : List Waiting} (few : Waiting.runs waiting ≤ bare) :
      Standing bare depth waiting
  | program {depth : Nat} {k : Except RuntimeFault Unit → HostProgram} {waiting : List Waiting}
      (below : Standing bare depth waiting) : Standing bare depth (.program k :: waiting)
  | execution {depth : Nat} {m : Module} {waiting : List Waiting}
      (below : Standing bare depth waiting) : Standing bare depth (.execution m :: waiting)
  | run {depth : Nat} {frame : RunFrame} {executed : Nat} {next : Int} {waiting : List Waiting}
      (deeper : frame.exitDepth < depth) (below : Standing bare frame.exitDepth waiting) :
      Standing bare depth (.run frame executed next :: waiting)

/-- What is done at a depth stands on those who wait for it. A run does not have to if there are fewer
of them than are bare. -/
def Task.Stands (bare depth : Nat) (waiting : List Waiting) : Task → Prop
  | fetch frame _ _ => Waiting.runs waiting < bare ∨
    frame.exitDepth < depth ∧ Standing bare frame.exitDepth waiting
  | unwind _ exitDepth _ => Waiting.runs waiting < bare ∨
    exitDepth ≤ depth ∧ Standing bare exitDepth waiting
  | _ => Standing bare depth waiting

namespace Standing
variable {bare depth : Nat} {waiting : List Waiting}

theorem of_program {k : Except RuntimeFault Unit → HostProgram}
    (h : Standing bare depth (.program k :: waiting)) : Standing bare depth waiting := by
  cases h with
  | bare few => exact .bare few
  | program below => exact below

theorem of_execution {m : Module} (h : Standing bare depth (.execution m :: waiting)) :
    Standing bare depth waiting := by
  cases h with
  | bare few => exact .bare few
  | execution below => exact below

theorem of_run {frame : RunFrame} {executed : Nat} {next : Int}
    (h : Standing bare depth (.run frame executed next :: waiting)) :
    Waiting.runs waiting < bare ∨
      frame.exitDepth < depth ∧ Standing bare frame.exitDepth waiting := by
  cases h with
  | bare few => exact .inl few
  | run deeper below => exact .inr ⟨deeper, below⟩

theorem runs_le (h : Standing bare depth waiting) :
    Waiting.runs waiting ≤ bare + depth := by
  induction h with
  | bare few => exact Nat.le_trans few (Nat.le_add_right ..)
  | program below ih => exact ih
  | execution below ih => exact ih
  | @run depth frame executed next waiting deeper below ih =>
    change Waiting.runs waiting + 1 ≤ bare + depth
    omega

theorem min_right {count : Nat} (h : Standing bare depth waiting)
    (le : Waiting.runs waiting ≤ count) : Standing (min bare count) depth waiting := by
  induction h with
  | bare few => exact .bare (Nat.le_min.mpr ⟨few, le⟩)
  | program below ih => exact .program (ih le)
  | execution below ih => exact .execution (ih le)
  | run deeper below ih => exact .run deeper (ih (Nat.le_of_succ_le le))

end Standing

namespace Configuration
variable {c c' : Configuration} {s : Session} {waiting : List Waiting} {settings : Settings}
  {bare : Nat}

/-- What holds at every step of a host program, with a number of runs that may be bare of frames: the
calls keep to the limit, the other runs stand on frames of their own, and the strings count no
execution that is not in progress. -/
structure Nested (settings : Settings) (bare : Nat) (c : Configuration) : Prop where
  stacked : c.machine.Stacked settings
  stands : c.task.Stands bare c.depth c.waiting
  counted : c.machine.store.strings.runs + c.task.asked ≤ c.inProgress

theorem Nested.runs_le (h : Nested settings bare c) :
    c.runs ≤ settings.maxStackDepth + 1 + bare := by
  obtain ⟨s, task, waiting⟩ := c
  obtain ⟨stacked, stands, -⟩ := h
  have within : s.machine.depth ≤ settings.maxStackDepth := stacked.depth
  have run : Waiting.runs waiting < bare ∨
      (∃ exitDepth ≤ s.machine.depth, Standing bare exitDepth waiting) →
      Waiting.runs waiting + 1 ≤ settings.maxStackDepth + 1 + bare := by
    rintro (few | ⟨exitDepth, le, below⟩)
    · omega
    · have count := below.runs_le
      omega
  have idle (below : Standing bare s.machine.depth waiting) :
      Waiting.runs waiting + 0 ≤ settings.maxStackDepth + 1 + bare := by
    have count := below.runs_le
    omega
  cases task with
  | fetch frame executed next =>
    exact run (stands.imp_right fun ⟨deeper, below⟩ => ⟨_, Nat.le_of_lt deeper, below⟩)
  | unwind m exitDepth outcome => exact run (stands.imp_right fun below => ⟨_, below⟩)
  | execute number => exact run (.inr ⟨_, Nat.le_refl _, stands⟩)
  | answer outcome => exact idle stands
  | perform p => exact idle stands

theorem settle_nested (stacked : s.machine.Stacked settings)
    (stands : Standing bare s.machine.depth waiting)
    (counted : s.machine.store.strings.runs ≤
      Waiting.runs waiting + Waiting.executions waiting + 1)
    (outcome : Except RuntimeFault Unit) : Nested settings bare (settle outcome s waiting) := by
  refine ⟨stacked.of_control rfl rfl, stands, ?_⟩
  have ended : s.machine.endRun.store.strings.runs = s.machine.store.strings.runs - 1 :=
    StringArena.runs_endRun _
  change s.machine.endRun.store.strings.runs + 0 ≤
    Waiting.runs waiting + 0 + Waiting.executions waiting
  omega

theorem execute_nested {number : Nat} (h : Nested settings bare ⟨s, .execute number, waiting⟩) :
    Nested settings bare (execute number s waiting) := by
  have stacked : s.machine.Stacked settings := h.stacked
  have stands : Standing bare s.machine.depth waiting := h.stands
  have counted : s.machine.store.strings.runs + 1 ≤
    Waiting.runs waiting + 1 + Waiting.executions waiting := h.counted
  have stacked' : (s.onMachine Machine.beginRun).machine.Stacked settings :=
    stacked.of_control rfl rfl
  have begun : (s.onMachine Machine.beginRun).machine.store.strings.runs =
      s.machine.store.strings.runs + 1 := StringArena.runs_beginRun _
  have entered {result : Except Fault Nat} {v : Machine}
      (hx : s.machine.program.executable number = .ok .bytecode)
      (he : (s.onMachine Machine.beginRun).machine.enter s.machine.program number = (result, v)) :
      v.Stacked settings ∧ s.machine.depth ≤ v.depth ∧
        (∀ first, result = .ok first → s.machine.depth < v.depth) ∧
        v.store.strings.runs + 0 ≤
          Waiting.runs waiting + 1 + Waiting.executions waiting := by
    have h0 := Machine.executable_bytecode hx
    have above := Machine.enter_above (s.onMachine Machine.beginRun).machine s.machine.program h0
    have shift := Machine.enter_shift (s.onMachine Machine.beginRun).machine s.machine.program h0
    rw [he] at above shift
    obtain ⟨kin, above, deeper⟩ := above
    have count : v.store.strings.runs = s.machine.store.strings.runs + 1 := kin.store.runs.trans begun
    exact ⟨stacked'.shift kin.settings shift, above.depth_le, deeper, by omega⟩
  rcases execute_cases number s waiting with ⟨first, v, hx, he, h⟩ | ⟨n, body, -, -, h⟩ |
    ⟨kind, h, -⟩ | ⟨kind, v, hx, he, h⟩ <;> rw [h]
  · obtain ⟨stacked, -, deeper, count⟩ := entered hx he
    exact ⟨stacked, .inr ⟨deeper first rfl, stands⟩, count⟩
  · refine ⟨stacked', .execution stands, ?_⟩
    change (s.onMachine Machine.beginRun).machine.store.strings.runs + 0 ≤
      Waiting.runs waiting + 0 + (Waiting.executions waiting + 1)
    omega
  · exact settle_nested stacked' stands (by omega) _
  · obtain ⟨stacked, le, -, count⟩ := entered hx he
    exact ⟨stacked, .inr ⟨le, stands⟩, count⟩

/-- A turn of a run leaves the run on its frame, or the run is over. -/
theorem fetch_nested {frame : RunFrame} {executed : Nat} {next : Int}
    (h : Nested settings bare ⟨s, .fetch frame executed next, waiting⟩) :
    Nested settings bare (fetch frame executed next s waiting) := by
  have stands : Waiting.runs waiting < bare ∨
    frame.exitDepth < s.machine.depth ∧ Standing bare frame.exitDepth waiting := h.stands
  have shift := Machine.turn_shift frame executed next s.machine
  have kin := Machine.turn_kin frame executed next s.machine
  have turned := h.stacked.shift kin.settings shift
  have counted : (s.machine.turn frame executed next).2.store.strings.runs + 0 ≤
      Waiting.runs waiting + 1 + Waiting.executions waiting := by
    rw [kin.store.runs]
    exact h.counted
  have stays : Waiting.runs waiting < bare ∨
      frame.exitDepth ≤ (s.machine.turn frame executed next).2.depth ∧
        Standing bare frame.exitDepth waiting := by
    refine stands.imp_right fun ⟨deeper, below⟩ => ⟨?_, below⟩
    exact Nat.le_of_lt_succ (Nat.lt_of_lt_of_le deeper shift.depth_le)
  have goes (h : (s.machine.turn frame executed next).1.Goes) :
      Waiting.runs waiting < bare ∨
        frame.exitDepth < (s.machine.turn frame executed next).2.depth ∧
          Standing bare frame.exitDepth waiting := by
    rcases stands with few | ⟨deeper, below⟩
    · exact .inl few
    · refine .inr ⟨?_, below⟩
      rcases Machine.turn_goes h with higher | elsewhere
      · omega
      · have lower := shift.depth_le
        omega
  cases ht : s.machine.turn frame executed next with
  | mk turn v =>
    rw [ht] at turned counted stays goes
    rcases fetch_cases ht waiting with ⟨next', rfl, h⟩ | ⟨n, next', body, rfl, -, h⟩ | ⟨-, h⟩ |
      ⟨kind, -, h⟩ <;> rw [h]
    · exact ⟨turned, goes trivial, counted⟩
    · refine ⟨turned, ?_, ?_⟩
      · rcases goes trivial with few | ⟨deeper, below⟩
        · exact .bare few
        · exact .run deeper below
      · change v.store.strings.runs + 0 ≤ Waiting.runs waiting + 1 + 0 + Waiting.executions waiting
        exact counted
    · exact ⟨turned, stays, counted⟩
    · exact ⟨turned, stays, counted⟩

theorem unwind_nested {m : Module} {exitDepth : Nat} {outcome : Except RuntimeFault Unit}
    (h : Nested settings bare ⟨s, .unwind m exitDepth outcome, waiting⟩) :
    Nested settings bare (unwind m exitDepth outcome s waiting) := by
  have stacked : s.machine.Stacked settings := h.stacked
  have stands : Waiting.runs waiting < bare ∨
    exitDepth ≤ s.machine.depth ∧ Standing bare exitDepth waiting := h.stands
  have counted : s.machine.store.strings.runs + 0 ≤
    Waiting.runs waiting + 1 + Waiting.executions waiting := h.counted
  simp only [unwind]
  split
  · rename_i deeper
    have left := Machine.leave_depth s.machine m
    have kin := (Machine.leave_kin s.machine m).store.runs
    have above : exitDepth ≤ (s.machine.leave m).2.depth := by omega
    refine ⟨stacked.leave m, stands.imp_right fun stood => ⟨above, stood.2⟩, ?_⟩
    change (s.machine.leave m).2.store.strings.runs + 0 ≤
      Waiting.runs waiting + 1 + Waiting.executions waiting
    omega
  · rename_i reached
    have stood : Standing bare s.machine.depth waiting := by
      rcases stands with few | ⟨le, below⟩
      · exact .bare (Nat.le_of_lt few)
      · rw [Nat.le_antisymm le (Nat.not_lt.mp reached)] at below
        exact below
    exact settle_nested stacked stood (by omega) outcome

theorem conclude_nested {outcome : Except Fault Unit} {p : HostProgram}
    (h : Nested settings bare ⟨s, .perform p, waiting⟩)
    (hn : conclude outcome s waiting = some c') : Nested settings bare c' := by
  obtain ⟨stacked, stands, counted⟩ := h
  have stands : Standing bare s.machine.depth waiting := stands
  rcases conclude_cases hn with ⟨frame, executed, next, rest, rfl, -, rfl⟩ |
    ⟨frame, executed, next, rest, kind, rfl, -, rfl⟩ | ⟨m, rest, rfl, rfl⟩
  · exact ⟨stacked, stands.of_run, counted⟩
  · exact ⟨stacked, stands.of_run.imp_right fun ⟨deeper, below⟩ => ⟨Nat.le_of_lt deeper, below⟩,
      counted⟩
  · have counted : s.machine.store.strings.runs + 0 ≤
      Waiting.runs rest + 0 + (Waiting.executions rest + 1) := counted
    exact settle_nested stacked stands.of_execution (by omega) _

/-- Where another module is put in place, every run that waits is bare. -/
theorem reload_nested {image : Text.Bytes} {v : Machine} {p : HostProgram}
    (configured : s.machine.settings = settings) (reloaded : s.machine.reload image = .ok v) :
    Nested settings (Waiting.runs waiting) ⟨{ s with machine := v }, .perform p, waiting⟩ := by
  obtain ⟨u, loaded, rfl⟩ := Machine.reload_ok reloaded
  rw [configured] at loaded
  obtain ⟨-, -, -, -, fresh⟩ := Machine.load_ok loaded
  refine ⟨(Machine.load_stacked loaded).of_control rfl rfl, .bare (Nat.le_refl _), ?_⟩
  change u.store.strings.runs + 0 ≤ _
  rw [fresh]
  exact Nat.zero_le _

/-- A request of a builtin keeps to the runs that are bare, or puts another module in place and leaves
every run that is in progress bare. -/
theorem perform_nested {p : HostProgram} (h : Nested settings bare ⟨s, .perform p, waiting⟩)
    (hn : perform s waiting p = some c') :
    reloads ⟨s, .perform p, waiting⟩ = false ∧ Nested settings bare c' ∨
      reloads ⟨s, .perform p, waiting⟩ = true ∧ Nested settings c'.runs c' := by
  rcases perform_requests hn with ⟨outcome, rfl, concluded⟩ | ⟨number, k, rfl, rfl⟩ |
    ⟨image, k, v, rfl, reloaded, rfl⟩ | ⟨s', p', rfl, kin, control, kept⟩
  · exact .inl ⟨by cases outcome <;> rfl, conclude_nested h concluded⟩
  · refine .inl ⟨rfl, h.stacked, .program h.stands, ?_⟩
    have counted : s.machine.store.strings.runs + 0 ≤
      Waiting.runs waiting + 0 + Waiting.executions waiting := h.counted
    change s.machine.store.strings.runs + 1 ≤
      Waiting.runs waiting + 1 + Waiting.executions waiting
    omega
  · have reloads : (s.machine.reload image).toOption.isSome = true := by
      rw [reloaded]
      rfl
    exact .inr ⟨reloads, reload_nested h.stacked.configured reloaded⟩
  · left
    have quiet : reloads ⟨s, .perform p, waiting⟩ = false := by
      unfold reloads
      split
      · rename_i image k asked
        exact kept image k (Task.perform.inj asked)
      · rfl
    have stands : Standing bare s.machine.depth waiting := h.stands
    refine ⟨quiet, h.stacked.of_control kin.settings control, ?_, ?_⟩
    · change Standing bare s'.machine.depth waiting
      rw [show s'.machine.depth = s.machine.depth from congrArg (·.calls.depth) control]
      exact stands
    · change s'.machine.store.strings.runs + 0 ≤ _
      rw [kin.store.runs]
      exact h.counted

/-- A step keeps to the runs that are bare, or puts another module in place and leaves every run that
is in progress bare. -/
theorem Nested.next (h : Nested settings bare c) (hn : c.next = some c') :
    c.reloads = false ∧ Nested settings bare c' ∨ c.reloads = true ∧ Nested settings c'.runs c' := by
  obtain ⟨s, task, waiting⟩ := c
  cases task with
  | execute number =>
    cases hn
    exact .inl ⟨rfl, execute_nested h⟩
  | fetch frame executed next =>
    cases hn
    exact .inl ⟨rfl, fetch_nested h⟩
  | unwind m exitDepth outcome =>
    cases hn
    exact .inl ⟨rfl, unwind_nested h⟩
  | answer outcome =>
    obtain ⟨k, rest, rfl, rfl⟩ := answer_cases rfl hn
    exact .inl ⟨rfl, h.stacked, Standing.of_program h.stands, h.counted⟩
  | perform p => exact perform_nested h hn

theorem Nested.min_right (h : Nested settings bare c) : Nested settings (min bare c.runs) c := by
  obtain ⟨s, task, waiting⟩ := c
  obtain ⟨stacked, stands, counted⟩ := h
  refine ⟨stacked, ?_, counted⟩
  have run {exitDepth : Nat} {above : Prop}
      (stands : Waiting.runs waiting < bare ∨ above ∧ Standing bare exitDepth waiting) :
      Waiting.runs waiting < min bare (Waiting.runs waiting + 1) ∨
        above ∧ Standing (min bare (Waiting.runs waiting + 1)) exitDepth waiting := by
    refine stands.imp (fun few => ?_) fun ⟨higher, below⟩ => ⟨higher, ?_⟩
    · exact Nat.lt_min.mpr ⟨few, Nat.lt_succ_self _⟩
    · exact below.min_right (Nat.le_succ _)
  cases task with
  | fetch frame executed next => exact run stands
  | unwind m exitDepth outcome => exact run stands
  | execute number => exact Standing.min_right stands (Nat.le_succ _)
  | answer outcome => exact Standing.min_right stands (Nat.le_refl _)
  | perform p => exact Standing.min_right stands (Nat.le_refl _)

theorem stranded_succ {n : Nat} {d d' : Configuration} (hd : after n c = some d)
    (hn : d.next = some d') :
    stranded (n + 1) c = if d.reloads then d'.runs else min (stranded n c) d'.runs := by
  have hd' : after (n + 1) c = some d' := by
    rw [after_succ, hd]
    exact hn
  simp only [stranded, hd, hd']

theorem stranded_eq_zero {n : Nat}
    (kept : ∀ k < n, ∀ d, after k c = some d → d.reloads = false) : stranded n c = 0 := by
  induction n with
  | zero => rfl
  | succ n ih =>
    have before := ih fun k hk => kept k (Nat.lt_succ_of_lt hk)
    cases hd : after n c with
    | none => simp only [stranded, hd]
    | some d =>
      cases hn : d.next with
      | none =>
        have stops : after (n + 1) c = none := by
          rw [after_succ, hd]
          exact hn
        simp only [stranded, hd, stops]
      | some d' =>
        rw [stranded_succ hd hn, kept n (Nat.lt_succ_self n) d hd, before]
        exact Nat.zero_min d'.runs

/-- Of the runs of a host program, at every step only the stranded ones are bare. -/
theorem after_nested (start : Nested settings 0 c) {n : Nat} {d : Configuration}
    (hd : after n c = some d) : Nested settings (stranded n c) d := by
  induction n generalizing d with
  | zero =>
    cases hd
    exact start
  | succ n ih =>
    rw [after_succ] at hd
    obtain ⟨e, he, hn⟩ := Option.bind_eq_some_iff.mp hd
    rw [stranded_succ he hn]
    rcases (ih he).next hn with ⟨quiet, kept⟩ | ⟨reloads, fresh⟩
    · rw [quiet]
      exact kept.min_right
    · rw [reloads]
      exact fresh

/-- At every step of a host program on a machine that has been loaded, no more executions are in
progress than the calls can be deep and one, besides those of builtins, and those that were in progress
when a module was last put in place. The strings count no execution that is not in progress. -/
theorem executions_in_progress {image : Text.Bytes} {capacity heapBytes : Nat} {v : Machine}
    (loaded : Machine.load image capacity heapBytes settings = .ok v) {builtins : List Builtin}
    {program : HostProgram} {n : Nat}
    (hc : after n ⟨⟨v, builtins⟩, .perform program, []⟩ = some c) :
    c.inProgress ≤ settings.maxStackDepth + 1 + c.builtinRuns +
        stranded n ⟨⟨v, builtins⟩, .perform program, []⟩ ∧
      c.machine.store.strings.runs ≤ c.inProgress ∧
      ((∀ k < n, ∀ d, after k ⟨⟨v, builtins⟩, .perform program, []⟩ = some d → d.reloads = false) →
        c.inProgress ≤ settings.maxStackDepth + 1 + c.builtinRuns) := by
  have started : Nested settings 0 ⟨⟨v, builtins⟩, .perform program, []⟩ := by
    obtain ⟨-, -, -, -, fresh⟩ := Machine.load_ok loaded
    refine ⟨Machine.load_stacked loaded, .bare (Nat.le_refl _), ?_⟩
    exact Nat.le_of_eq fresh
  have nested := after_nested started hc
  have bounded : c.inProgress ≤ settings.maxStackDepth + 1 + c.builtinRuns +
      stranded n ⟨⟨v, builtins⟩, .perform program, []⟩ := by
    have le := nested.runs_le
    unfold inProgress
    omega
  refine ⟨bounded, Nat.le_trans (Nat.le_add_right ..) nested.counted, fun kept => ?_⟩
  rw [stranded_eq_zero kept] at bounded
  exact bounded

end Configuration

def endlessImage : Text.Bytes :=
  { Builder.empty with
    functions := #[.null, { FunctionRecord.null with entry := -1 }] : Builder }.bytes

theorem endlessImage_loads :
    (Machine.load endlessImage 0 0 { maxStackDepth := 1 }).toOption.isSome := by decide +kernel

def endlessMachine : Machine :=
  (Machine.load endlessImage 0 0 { maxStackDepth := 1 }).toOption.get endlessImage_loads

theorem endless_loaded : Machine.load endlessImage 0 0 { maxStackDepth := 1 } = .ok endlessMachine :=
  Session.eq_ok_get endlessImage_loads

namespace Session

def endlessProgram : HostProgram := .execute 1 fun _ => .done

def endless : Session := ⟨endlessMachine, [⟨1, "again", endlessProgram⟩]⟩

theorem endless_executable : endless.machine.program.executable 1 = .ok (.builtin 1) :=
  ok_of_toOption (by decide +kernel)

end Session

namespace Configuration
open Session (endless endlessProgram)

theorem endless_nests {s : Session} (waiting : List Waiting)
    (program : s.machine.program = endless.machine.program) (builtins : s.builtins = endless.builtins) :
    after 2 ⟨s, .perform endlessProgram, waiting⟩ = some ⟨s.onMachine Machine.beginRun,
      .perform endlessProgram, .execution s.machine.program :: .program (fun _ => .done) :: waiting⟩ := by
  have asked : next ⟨s, .perform endlessProgram, waiting⟩ =
    some ⟨s, .execute 1, .program (fun _ => .done) :: waiting⟩ := rfl
  have found : (s.onMachine Machine.beginRun).builtin? (1 : UInt32).toNat = some endlessProgram := by
    simp only [Session.builtin?, Session.onMachine, builtins]
    rfl
  rw [after_of_next asked, after_succ, after_zero, Option.bind_some]
  simp only [next, execute, program, Session.endless_executable, found]

theorem endless_runs (n : Nat) : ∃ s waiting,
    after (2 * n) ⟨endless, .perform endlessProgram, []⟩ = some ⟨s, .perform endlessProgram, waiting⟩ ∧
      s.machine.program = endless.machine.program ∧ s.builtins = endless.builtins ∧
      Waiting.executions waiting = n := by
  induction n with
  | zero => exact ⟨endless, [], rfl, rfl, rfl, rfl⟩
  | succ n ih =>
    obtain ⟨s, waiting, hn, program, builtins, count⟩ := ih
    have nests := endless_nests waiting program builtins
    rw [Nat.mul_succ, after_add, hn, Option.bind_some, nests]
    exact ⟨_, _, rfl, program, builtins, congrArg (· + 1) count⟩

/-- However many executions are asked to be in progress, the builtin that executes itself comes to as
many, although the calls can be one deep only. -/
theorem endless_unbounded :
    Machine.load endlessImage 0 0 { maxStackDepth := 1 } = .ok endlessMachine ∧
      ∀ count, ∃ n c, after n ⟨endless, .perform endlessProgram, []⟩ = some c ∧
        count ≤ c.inProgress := by
  refine ⟨endless_loaded, fun count => ?_⟩
  obtain ⟨s, waiting, hn, -, -, executions⟩ := endless_runs count
  refine ⟨2 * count, _, hn, ?_⟩
  exact Nat.le_trans (Nat.le_of_eq executions.symm) (Nat.le_add_left ..)

/-- A host that executes the first function of the module with nested runs. -/
def nestedHost : Configuration := ⟨Session.nested, .perform (.execute 1 fun _ => .done), []⟩

theorem nestedHost_runs : (after 9 nestedHost).any (fun c =>
      c.inProgress = 2 ∧ c.builtinRuns = 0 ∧ c.machine.settings = {}) ∧
    ∀ k < 9, (after k nestedHost).any reloads = false := by
  decide +kernel

/-- After nine steps two runs are in progress, the second one for a builtin that the first one has
called. -/
theorem nestedHost_in_progress : ∃ c, after 9 nestedHost = some c ∧ c.inProgress = 2 ∧
    c.inProgress ≤ c.machine.settings.maxStackDepth + 1 ∧
    c.machine.store.strings.runs ≤ c.inProgress := by
  obtain ⟨reached, kept⟩ := nestedHost_runs
  obtain ⟨c, hc, facts⟩ := (Option.any_eq_true _ _).mp reached
  obtain ⟨two, builtins, settings⟩ := of_decide_eq_true facts
  obtain ⟨-, counted, bounded⟩ :=
    executions_in_progress (Session.eq_ok_get Session.nestedImage_loads) hc
  refine ⟨c, hc, two, ?_, counted⟩
  rw [settings]
  rw [builtins] at bounded
  refine bounded fun k hk d hd => ?_
  have quiet := kept k hk
  have hd : after k nestedHost = some d := hd
  rw [hd] at quiet
  exact quiet

end Configuration
end GameBytecode
