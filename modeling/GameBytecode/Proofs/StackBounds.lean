import Mathlib.Algebra.GroupWithZero.Nat
import GameBytecode.Proofs.FaultOrigin

/-!
The two stacks of a run stay within their limits and in step with each other: the words saved are
those of the functions in progress, so that every function can be left.
-/
namespace GameBytecode

/-- The words of locals that a function has. -/
def Module.localsOf (m : Module) (number : Nat) : Nat :=
  match m.function? number with
  | some f => f.locals.toNat
  | none => 0

/-- The functions in progress, the current one first. -/
def CallState.activations (c : CallState) : List Nat :=
  (c.function :: c.calls.frames.map (·.function)).filter (· ≠ 0)

/-- The faults of taking something off an empty stack. -/
def Fault.Underflow : Fault → Prop
  | .stackUnderflow | .localsUnderflow => True
  | _ => False

theorem Fault.OfEffect.not_underflow {e : Fault} (h : e.OfEffect) : ¬ e.Underflow := by
  cases e <;> first | exact h.elim | exact id

theorem Fault.OfCall.not_underflow {e : Fault} (h : e.OfCall) : ¬ e.Underflow := by
  cases e <;> first | exact h.elim | exact id

theorem Module.Misplaced.not_underflow {m : Module} {number : Nat} {e : Fault}
    (h : m.Misplaced number e) : ¬ e.Underflow := by
  obtain ⟨f, -, -, rfl⟩ := h
  exact id

namespace CallState

theorem activations_save (c : CallState) {number : Nat} (h0 : number ≠ 0) (ws : List Word)
    (statement : Nat) :
    ({ c.save number ws with statement } : CallState).activations = number :: c.activations := by
  simp only [activations, save, CallStack.add]
  rw [List.filter_cons_of_pos (by simpa using h0), List.map_cons]

variable {m : Module} {size : Nat} {base c : CallState}

theorem Above.limits (h : Above m size base c) :
    c.calls.limit = base.calls.limit ∧ c.saved.capacity = base.saved.capacity := by
  induction h with
  | base => exact ⟨rfl, rfl⟩
  | entered statement below enterable frame room length ih => exact ih

theorem Above.bounds {settings : Settings} (h : Above m size (Machine.idle settings) c) :
    c.calls.depth ≤ settings.maxStackDepth ∧ c.saved.used ≤ settings.localsStackSize ∧
      c.saved.used = (c.activations.map m.localsOf).sum := by
  induction h with
  | base => exact ⟨Nat.zero_le _, Nat.zero_le _, rfl⟩
  | @entered c number f ws statement below enterable frame room length ih =>
    obtain ⟨limit, capacity⟩ := below.limits
    obtain ⟨-, -, sum⟩ := ih
    have deeper : c.calls.depth < settings.maxStackDepth := by
      have hasRoom := of_decide_eq_true frame
      rw [limit] at hasRoom
      exact hasRoom
    have fits : c.saved.used + f.locals.toNat ≤ settings.localsStackSize := by
      have hasRoom := of_decide_eq_true room
      rw [capacity] at hasRoom
      exact hasRoom
    have used : ({ c.save number ws with statement } : CallState).saved.used =
        c.saved.used + f.locals.toNat := by
      simp only [save, SavedLocals.used, Array.size_append, List.size_toArray, length]
    refine ⟨deeper, by rw [used]; exact fits, ?_⟩
    rw [used, activations_save c enterable.nonzero, List.map_cons, List.sum_cons, ← sum,
      Nat.add_comm]
    simp only [Module.localsOf]
    rw [enterable.found]

end CallState

namespace Machine
variable {v : Machine} {e : Fault}

/-- Where the current function can be left, no turn of a run ends in an underflow. -/
theorem FaultsWith.not_underflow {frame : RunFrame} {executed : Nat} {next : Int}
    (h : v.FaultsWith frame executed next e)
    (leaves : ∀ (u : Machine) (statement : Nat),
      u.store.memory.words.size = v.store.memory.words.size →
        u.control = { v.control with statement } → (u.leave frame.program).1 = .ok ()) :
    ¬ e.Underflow := by
  cases h with
  | limit reached => exact id
  | outside h => exact id
  | effect fetched h =>
    have faulted := (step_ends _ _ _ _ _).2 e h
    intro under
    cases e <;> first | exact under.elim | exact faulted.elim
  | call h => exact h.not_underflow
  | misplaced fetched called bytecode h => exact h.not_underflow
  | returning address => exact id
  | leaving u size control h =>
    rw [leaves u next.toNat size control] at h
    cases h

end Machine

namespace Configuration
variable {v : Machine} {c c' : Configuration} {s : Session} {waiting : List Waiting}

/-- A machine from which a step of a configuration leaves a function, with the module that says which
words to put back: while a run is unwound, or for a return whose value has been copied. -/
inductive Leaves (c : Configuration) : Machine → Module → Prop where
  | unwinding {m : Module} {exitDepth : Nat} {outcome : Except RuntimeFault Unit}
      (task : c.task = .unwind m exitDepth outcome) (deeper : exitDepth < c.depth) :
      Leaves c c.machine m
  | returning {frame : RunFrame} {executed : Nat} {next : Int} {st : Statement} {value : UInt16}
      {u w : Machine} (task : c.task = .fetch frame executed next)
      (fetched : frame.program.statements[next.toNat]? = some st)
      (ran : (c.machine.record frame.program next.toNat).act
        (step c.machine.settings frame.program next.toNat st) = (.ok (.ret value), w))
      (copied : w.act (Action.copy value.toNat Address.result 3) = (.ok (), u)) :
      Leaves c u frame.program

theorem Orderly.leave_ok (h : c.Orderly v) (hd : v.depth < c.depth) {u : Machine} {statement : Nat}
    (size : u.store.memory.words.size = c.machine.store.memory.words.size)
    (control : u.control = { c.machine.control with statement }) :
    (u.leave v.program).1 = .ok () := by
  have above : v.control.Above v.program u.store.memory.words.size u.control := by
    rw [size, h.atop.size, control]
    exact h.atop.above.move hd statement
  obtain ⟨_, _, _, -, -, -, -, -, hl⟩ := Machine.leave_above above (by rw [control]; exact hd)
  rw [hl]

theorem Orderly.leaves_ok (h : c.Orderly v) {u : Machine} {m : Module} (hl : c.Leaves u m) :
    (u.leave m).1 = .ok () := by
  obtain ⟨s, task, waiting⟩ := c
  have fits := h.fits
  cases hl with
  | unwinding ht deeper =>
    cases ht
    obtain ⟨rfl, -, awaited⟩ := fits
    have stays : s.machine.control =
        { s.machine.control with statement := s.machine.control.statement } := rfl
    exact h.leave_ok (Nat.lt_of_le_of_lt awaited.depth_le deeper) rfl stays
  | @returning frame executed next st value u w ht fetched ran copied =>
    cases ht
    obtain ⟨program, deeper, awaited⟩ := fits
    rw [Machine.act_eq, Machine.record_store] at ran
    cases hr : step s.machine.settings frame.program next.toNat st s.machine.store with
    | mk result store =>
      rw [hr] at ran
      obtain ⟨-, rfl⟩ := Prod.ext_iff.mp ran
      rw [Machine.act_eq, Machine.setStore_store] at copied
      have stepped := Machine.step_alike hr
      have alike := stepped.trans (Action.copy_alike value.toNat Address.result 3 store)
      cases hc : Action.copy value.toNat Address.result 3 store with
      | mk result' store' =>
        rw [hc] at copied alike
        obtain ⟨-, rfl⟩ := Prod.ext_iff.mp copied
        have moved := Machine.record_control frame.program next.toNat s.machine
        rw [program] at moved ⊢
        exact h.leave_ok (Nat.lt_of_le_of_lt awaited.depth_le deeper) alike.size moved

/-- No step of a run raises an underflow. -/
theorem Orderly.fault (h : c.Orderly v) (hn : c.next = some c') {kind : Fault}
    (hk : kind.Underflow) (hf : c'.task.fault? = some kind) :
    c.task.fault? = some kind ∨ c.task = .perform (.fail kind) := by
  rcases next_fault hn hf with before | raised
  · exact .inl before
  cases raised with
  | builtin task => exact .inr task
  | executing task origin =>
    rcases origin with origin | ⟨-, origin⟩
    · exact absurd hk origin.not_underflow
    · exact absurd hk origin.not_underflow
  | @fetching frame executed next kind task origin =>
    obtain ⟨s, task, waiting⟩ := c
    subst task
    obtain ⟨program, deeper, awaited⟩ := h.fits
    have leaves (u : Machine) (statement : Nat)
        (size : u.store.memory.words.size = s.machine.store.memory.words.size)
        (control : u.control = { s.machine.control with statement }) :
        (u.leave frame.program).1 = .ok () := by
      rw [program]
      exact h.leave_ok (Nat.lt_of_le_of_lt awaited.depth_le deeper) size control
    exact absurd hk (origin.not_underflow leaves)

/-- At every step of an execution between which and the host nothing reloads, the stacks are within
their limits and the words saved are those of the functions in progress. Every function that is left
can be left, and an underflow is raised only by a builtin. -/
theorem stacks_bounded {s : Session} (hs : s.Between) {number n : Nat} {c : Configuration}
    (hc : after n (start number s) = some c) :
    c.depth ≤ c.machine.settings.maxStackDepth ∧
      c.machine.control.saved.used ≤ c.machine.settings.localsStackSize ∧
      c.machine.control.saved.used =
        (c.machine.control.activations.map c.machine.program.localsOf).sum ∧
      (∀ u m, c.Leaves u m → (u.leave m).1 = .ok ()) ∧
      ∀ c' kind, c.next = some c' → kind.Underflow → c'.task.fault? = some kind →
        c.task.fault? = some kind ∨ c.task = .perform (.fail kind) := by
  have orderly := orderly_after hs.idle.steady hc
  have above := orderly.atop.above
  rw [hs.idle.control] at above
  obtain ⟨depth, used, sum⟩ := above.bounds
  rw [orderly.atop.settings, orderly.atop.program]
  exact ⟨depth, used, sum, fun u m hl => orderly.leaves_ok hl,
    fun c' kind hn hk hf => orderly.fault hn hk hf⟩

theorem nested_runs : (after 8 (start 1 Session.nested)).isSome := by decide +kernel

theorem nested_stacks_bounded :
    Session.nested.Between ∧ ∃ c, after 8 (start 1 Session.nested) = some c ∧
      c.depth ≤ c.machine.settings.maxStackDepth ∧
      c.machine.control.saved.used =
        (c.machine.control.activations.map c.machine.program.localsOf).sum := by
  obtain ⟨c, hc⟩ := Option.isSome_iff_exists.mp nested_runs
  obtain ⟨depth, -, sum, -⟩ := stacks_bounded Session.nested_between hc
  exact ⟨Session.nested_between, c, hc, depth, sum⟩

end Configuration
end GameBytecode
