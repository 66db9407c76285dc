import GameBytecode.Proofs.ControlRestored
import GameBytecode.Proofs.Transition

/-!
What holds at every step of an execution: the machine stands at or above the place from which it was
started, and everyone who waits gets the calls back as deep as they were.
-/
namespace GameBytecode

/-- A session that came from a machine by entering functions. No builtin reloads. -/
structure Session.Atop (v : Machine) (s : Session) : Prop where
  steady : s.Steady
  program : s.machine.program = v.program
  settings : s.machine.settings = v.settings
  size : s.machine.store.memory.words.size = v.store.memory.words.size
  above : v.control.Above v.program v.store.memory.words.size s.machine.control

/-- At a depth of calls the outcome can be told to those who wait. A run that waits does so above
the depth at which it ends. -/
def Machine.Awaited (v : Machine) : Nat → List Waiting → Prop
  | depth, [] => depth = v.depth
  | depth, .program k :: waiting => (∀ outcome, (k outcome).Steady) ∧ v.Awaited depth waiting
  | depth, .run frame _ _ :: waiting =>
    frame.program = v.program ∧ frame.exitDepth < depth ∧ v.Awaited frame.exitDepth waiting
  | depth, .execution _ :: waiting => v.Awaited depth waiting

/-- What is done at a depth fits with those who wait for it. -/
def Task.Fits (v : Machine) (depth : Nat) (waiting : List Waiting) : Task → Prop
  | execute _ | answer _ => v.Awaited depth waiting
  | fetch frame _ _ =>
    frame.program = v.program ∧ frame.exitDepth < depth ∧ v.Awaited frame.exitDepth waiting
  | unwind m exitDepth _ =>
    m = v.program ∧ exitDepth ≤ depth ∧ v.Awaited exitDepth waiting
  | perform p => p.Steady ∧ v.Awaited depth waiting

/-- A configuration that an execution started on a machine can come to. -/
structure Configuration.Orderly (v : Machine) (c : Configuration) : Prop where
  atop : c.session.Atop v
  fits : c.task.Fits v c.depth c.waiting

variable {v : Machine}

namespace Session.Atop
variable {s s' : Session}

theorem refl {s : Session} (h : s.Steady) : s.Atop s.machine := ⟨h, rfl, rfl, rfl, .base⟩

theorem stay (h : s.Atop v) (steady : s'.Steady) (kin : s.machine.Kin s'.machine)
    (control : s'.machine.control = s.machine.control) : s'.Atop v :=
  ⟨steady, kin.program.trans h.program, kin.settings.trans h.settings,
    kin.store.size.trans h.size, by rw [control]; exact h.above⟩

theorem endRun (h : s.Atop v) : (s.onMachine Machine.endRun).Atop v :=
  ⟨h.steady, h.program, h.settings, h.size, h.above⟩

end Session.Atop

theorem Machine.Awaited.depth_le {depth : Nat} {waiting : List Waiting}
    (h : v.Awaited depth waiting) : v.depth ≤ depth := by
  induction waiting generalizing depth with
  | nil => exact Nat.le_of_eq h.symm
  | cons w waiting ih =>
    cases w with
    | program k => exact ih h.2
    | run frame executed next => exact Nat.le_of_lt (Nat.lt_of_le_of_lt (ih h.2.2) h.2.1)
    | execution m => exact ih h

namespace Configuration
variable {c c' : Configuration} {s : Session} {waiting : List Waiting}

/-- A step from one configuration to the next: the calls change as a statement can change them. -/
structure Follows (v : Machine) (s : Session) (c : Configuration) : Prop where
  orderly : c.Orderly v
  shift : s.machine.Shift v.program c.machine

theorem settle_follows (h : s.Atop v) (hw : v.Awaited s.machine.depth waiting)
    (outcome : Except RuntimeFault Unit) : Follows v s (settle outcome s waiting) :=
  ⟨⟨h.endRun, hw⟩, .of_eq rfl⟩

theorem conclude_follows {outcome : Except Fault Unit} (h : s.Atop v)
    (hw : v.Awaited s.machine.depth waiting) (hn : conclude outcome s waiting = some c') :
    Follows v s c' := by
  cases waiting with
  | nil => cases hn
  | cons w waiting =>
    cases w with
    | program k => cases hn
    | execution m =>
      have told : v.Awaited s.machine.depth waiting := hw
      cases hn
      exact settle_follows h told _
    | run frame executed next =>
      cases outcome with
      | ok _ =>
        cases hn
        exact ⟨⟨h, hw⟩, .of_eq rfl⟩
      | error e =>
        cases hn
        exact ⟨⟨h, hw.1, Nat.le_of_lt hw.2.1, hw.2.2⟩, .of_eq rfl⟩

theorem perform_follows {p : HostProgram} (h : s.Atop v) (hp : p.Steady)
    (hw : v.Awaited s.machine.depth waiting) (hn : perform s waiting p = some c') :
    Follows v s c' := by
  have same : s.machine.Shift v.program s.machine := .of_eq rfl
  cases p with
  | done => exact conclude_follows h hw (show conclude (.ok ()) s waiting = some c' from hn)
  | fail e => exact conclude_follows h hw (show conclude (.error e) s waiting = some c' from hn)
  | inspect k =>
    cases hn
    exact ⟨⟨h, hp _ _, hw⟩, same⟩
  | write address words k =>
    have alike := Action.put_alike address words s.machine.store
    cases hn
    exact ⟨⟨h.stay h.steady ⟨rfl, rfl, alike⟩ rfl, hp _, hw⟩, .of_eq rfl⟩
  | makeString bytes k =>
    cases hn
    exact ⟨⟨h.stay h.steady ⟨rfl, rfl, rfl, StringArena.runs_push ..⟩ rfl, hp _, hw⟩,
      .of_eq rfl⟩
  | clearStrings k =>
    cases hn
    exact ⟨⟨h.stay h.steady ⟨rfl, rfl, rfl, rfl⟩ rfl, hp, hw⟩, .of_eq rfl⟩
  | setArgc argc k =>
    cases hn
    exact ⟨⟨h.stay h.steady ⟨rfl, rfl, .refl _⟩ rfl, hp, hw⟩, .of_eq rfl⟩
  | setTracing on k =>
    cases hn
    exact ⟨⟨h.stay h.steady ⟨rfl, rfl, .refl _⟩ rfl, hp, hw⟩, .of_eq rfl⟩
  | emit line k =>
    cases hn
    exact ⟨⟨h.stay h.steady ⟨rfl, rfl, .refl _⟩ rfl, hp, hw⟩, .of_eq rfl⟩
  | reload image k => exact hp.elim
  | register number name body k =>
    cases hn
    exact ⟨⟨h.stay (h.steady.register hp.1) (.refl _) rfl, hp.2, hw⟩, same⟩
  | execute function k =>
    cases hn
    exact ⟨⟨h, hp, hw⟩, same⟩

theorem execute_follows (h : s.Atop v) (hw : v.Awaited s.machine.depth waiting) (number : Nat) :
    Follows v s (execute number s waiting) := by
  simp only [execute]
  have begun : (s.onMachine Machine.beginRun).Atop v :=
    ⟨h.steady, h.program, h.settings, h.size, h.above⟩
  cases hc : s.machine.program.executable number with
  | error e =>
    exact ⟨(settle_follows begun hw _).orderly, .of_eq rfl⟩
  | ok callee =>
    cases callee with
    | builtin n =>
      dsimp only
      cases hb : (s.onMachine Machine.beginRun).builtin? n.toNat with
      | some body =>
        exact ⟨⟨begun, begun.steady.builtin hb, hw⟩, .of_eq rfl⟩
      | none => exact ⟨(settle_follows begun hw _).orderly, .of_eq rfl⟩
    | bytecode =>
      have h0 := Machine.executable_bytecode hc
      have entered := Machine.enter_above (s.onMachine Machine.beginRun).machine s.machine.program h0
      have shift : s.machine.Shift s.machine.program
          ((s.onMachine Machine.beginRun).machine.enter s.machine.program number).2 :=
        (Machine.enter_shift (s.onMachine Machine.beginRun).machine s.machine.program h0).of_moved
          rfl (show _ = { s.machine.control with statement := s.machine.control.statement } from rfl)
      rw [h.program] at entered shift ⊢
      dsimp only
      cases he : (s.onMachine Machine.beginRun).machine.enter v.program number with
      | mk result u =>
        rw [he] at entered shift
        obtain ⟨kin, above, deeper⟩ := entered
        have atop : Session.Atop v { s with machine := u } := by
          refine ⟨h.steady, kin.program.trans begun.program, kin.settings.trans begun.settings,
            kin.store.size.trans begun.size, begun.above.trans ?_⟩
          rw [← begun.size]
          exact above
        cases result with
        | error e => exact ⟨⟨atop, rfl, above.depth_le, hw⟩, shift⟩
        | ok first => exact ⟨⟨atop, rfl, deeper first rfl, hw⟩, shift⟩

theorem fetch_follows {frame : RunFrame} (h : s.Atop v) (hf : frame.program = v.program)
    (hd : frame.exitDepth < s.machine.depth) (hw : v.Awaited frame.exitDepth waiting)
    (executed : Nat) (next : Int) : Follows v s (fetch frame executed next s waiting) := by
  have shift := Machine.turn_shift frame executed next s.machine
  have kin := Machine.turn_kin frame executed next s.machine
  have standing : v.control.Above frame.program s.machine.store.memory.words.size
      s.machine.control := by
    rw [hf, h.size]
    exact h.above
  obtain ⟨above, reached, deeper⟩ :=
    Machine.turn_above executed next standing hw.depth_le hd
  unfold fetch
  rw [hf] at shift
  rw [hf, h.size] at above
  cases ht : s.machine.turn frame executed next with
  | mk turn u =>
    rw [ht] at shift kin above reached deeper
    have atop : Session.Atop v { s with machine := u } :=
      ⟨h.steady, kin.program.trans h.program, kin.settings.trans h.settings,
        kin.store.size.trans h.size, above⟩
    cases turn with
    | go next' => exact ⟨⟨atop, hf, deeper trivial, hw⟩, shift⟩
    | returned => exact ⟨⟨atop, hf, reached, hw⟩, shift⟩
    | fault kind => exact ⟨⟨atop, hf, reached, hw⟩, shift⟩
    | builtin n next' =>
      dsimp only
      cases hb : ({ s with machine := u } : Session).builtin? n.toNat with
      | none => exact ⟨⟨atop, hf, reached, hw⟩, shift⟩
      | some body => exact ⟨⟨atop, atop.steady.builtin hb, hf, deeper trivial, hw⟩, shift⟩

theorem unwind_follows {exitDepth : Nat} (h : s.Atop v) (hd : exitDepth ≤ s.machine.depth)
    (hw : v.Awaited exitDepth waiting) (outcome : Except RuntimeFault Unit) :
    Follows v s (unwind v.program exitDepth outcome s waiting) := by
  unfold unwind
  split
  · rename_i deeper
    have low : v.depth < s.machine.depth := Nat.lt_of_le_of_lt hw.depth_le deeper
    have lower := Machine.leave_depth s.machine v.program
    have kin := Machine.leave_kin s.machine v.program
    obtain ⟨c, f, ws, below, -, -, -, -, hl⟩ := Machine.leave_above (m := v.program)
      (by rw [h.size]; exact h.above) low
    refine ⟨⟨⟨h.steady, kin.program.trans h.program, kin.settings.trans h.settings,
      kin.store.size.trans h.size, ?_⟩, rfl, ?_, hw⟩,
      .leave s.machine.control.statement s.machine rfl rfl rfl⟩
    · simp only [Session.onMachine, hl]
      rw [← h.size]
      exact below
    · exact Nat.le_of_lt_succ (by simp only [depth, machine, Session.onMachine]; omega)
  · rename_i reached
    rw [Nat.le_antisymm hd (Nat.not_lt.mp reached)] at hw
    exact settle_follows h hw outcome

/-- A step from an orderly configuration leads to one. -/
theorem Orderly.follows (h : c.Orderly v) (hn : c.next = some c') : Follows v c.session c' := by
  obtain ⟨s, task, waiting⟩ := c
  obtain ⟨atop, fits⟩ := h
  unfold next at hn
  cases task with
  | execute number =>
    cases hn
    exact execute_follows atop fits number
  | fetch frame executed next =>
    cases hn
    exact fetch_follows atop fits.1 fits.2.1 fits.2.2 executed next
  | unwind m exitDepth outcome =>
    cases hn
    obtain ⟨rfl, hd, hw⟩ := fits
    exact unwind_follows atop hd hw outcome
  | perform p => exact perform_follows atop fits.1 fits.2 hn
  | answer outcome =>
    dsimp only at hn
    split at hn
    · rename_i k waiting
      cases hn
      exact ⟨⟨atop, resume_keeps (fits.1 outcome) fun _ => trivial, fits.2⟩, .of_eq rfl⟩
    · cases hn

/-- Every configuration of an execution is orderly. -/
theorem orderly_after {number n : Nat} (hs : s.Steady) (h : after n (start number s) = some c) :
    c.Orderly s.machine := by
  have started : (start number s).Orderly s.machine := ⟨.refl hs, rfl⟩
  exact after_invariant started (fun _ _ orderly hn => (orderly.follows hn).orderly) h

end Configuration
end GameBytecode
