import GameBytecode.Proofs.StepCases
import Mathlib.Algebra.GroupWithZero.Nat

/-!
How many statements an execution runs. Every run counts its own statements and stops at the limit, so
that an execution runs at most as many statements as the limit allows for each run that it starts.
-/
namespace GameBytecode

/-- How many statements a run in progress may still run. -/
def Task.left (budget : Nat) : Task → Nat
  | fetch _ executed _ => budget - executed
  | _ => 0

/-- A run in progress stops at the limit. -/
def Task.Limited (budget : Nat) : Task → Prop
  | fetch frame _ _ => frame.budget = some budget
  | _ => True

/-- How many statements a run that waits may still run. -/
def Waiting.left (budget : Nat) : Waiting → Nat
  | run _ executed _ => budget - executed
  | _ => 0

/-- A run that waits stops at the limit. -/
def Waiting.Limited (budget : Nat) : Waiting → Prop
  | run frame _ _ => frame.budget = some budget
  | _ => True

namespace Configuration
variable {c c' : Configuration} {s : Session} {waiting : List Waiting} {budget : Nat}

/-- Whether the next step runs a statement: one is to be fetched, there is one, and the limit of the
run has not been reached. -/
def runsStatement (c : Configuration) : Bool :=
  match c.task with
  | .fetch frame executed next =>
    !frame.budget.any (· ≤ executed) && 0 ≤ next && next.toNat < frame.program.statements.size
  | _ => false

/-- Whether the next step starts a run. -/
def startsRun (c : Configuration) : Bool :=
  match c.task with
  | .execute number =>
    match (execute number c.session c.waiting).task with
    | .fetch .. => true
    | _ => false
  | _ => false

/-- How many of the first configurations of an execution are of a kind. -/
def tally (kind : Configuration → Bool) (n : Nat) (c : Configuration) : Nat :=
  (List.range n).countP fun k => (after k c).any kind

/-- How many statements are run in the first steps from a configuration. -/
def statementsRun (n : Nat) (c : Configuration) : Nat := tally runsStatement n c

/-- How many runs are started in the first steps from a configuration. -/
def runsStarted (n : Nat) (c : Configuration) : Nat := tally startsRun n c

theorem tally_succ (kind : Configuration → Bool) (n : Nat) (c : Configuration) :
    tally kind (n + 1) c = tally kind n c + ((after n c).any kind).toNat := by
  simp only [tally, List.range_succ, List.countP_append, List.countP_singleton]
  cases (after n c).any kind <;> rfl

/-- How many statements the runs in progress may still run. -/
def left (budget : Nat) (c : Configuration) : Nat :=
  c.task.left budget + (c.waiting.map (·.left budget)).sum

/-- Every run in progress stops at the limit, and so does every run that will be started. -/
structure Budgeted (budget : Nat) (c : Configuration) : Prop where
  noExecLimit : c.machine.settings.noExecLimit = false
  runawayBudget : c.machine.settings.runawayBudget = budget
  task : c.task.Limited budget
  waiting : ∀ w ∈ c.waiting, w.Limited budget

theorem opening_budget {settings : Settings} (h : settings.noExecLimit = false) (m : Module)
    (exitDepth : Nat) :
    (RunFrame.opening m exitDepth settings).budget = some settings.runawayBudget := by
  simp only [RunFrame.opening, h]
  rfl

theorem runsStatement_left (s : Session) (waiting : List Waiting) {frame : RunFrame}
    (executed : Nat) (next : Int) (hf : frame.budget = some budget) :
    (runsStatement ⟨s, .fetch frame executed next, waiting⟩).toNat + (budget - (executed + 1)) ≤
      budget - executed := by
  cases hr : runsStatement ⟨s, .fetch frame executed next, waiting⟩ with
  | false =>
    rw [Bool.toNat_false]
    omega
  | true =>
    simp only [runsStatement, hf, Bool.and_eq_true, Bool.not_eq_true', Option.any_some,
      decide_eq_false_iff_not] at hr
    rw [Bool.toNat_true]
    omega

/-- What a step has to do with the statements left: one that is run is one of them, and a run that is
started adds as many as the limit allows. -/
structure Spends (budget : Nat) (c c' : Configuration) : Prop where
  task : c'.task.Limited budget
  waiting : ∀ w ∈ c'.waiting, w.Limited budget
  spent : (runsStatement c).toNat + c'.left budget ≤
    c.left budget + budget * (startsRun c).toNat

theorem Spends.quiet (task : c'.task.Limited budget) (waiting : ∀ w ∈ c'.waiting, w.Limited budget)
    (runs : runsStatement c = false) (kept : c'.left budget ≤ c.left budget) :
    Spends budget c c' := by
  refine ⟨task, waiting, ?_⟩
  rw [runs, Bool.toNat_false, Nat.zero_add]
  exact Nat.le_trans kept (Nat.le_add_right _ _)

theorem execute_spends {number : Nat} (h : Budgeted budget ⟨s, .execute number, waiting⟩) :
    Spends budget ⟨s, .execute number, waiting⟩ (execute number s waiting) := by
  have settings : (execute number s waiting).machine.settings = s.machine.settings :=
    next_settings (c := ⟨s, .execute number, waiting⟩) rfl
  -- Only the first case starts a run; in the others what is left is what those who wait have left.
  rcases execute_cases number s waiting with ⟨first, v, -, -, he⟩ | ⟨n, body, -, -, he⟩ |
    ⟨kind, he, -⟩ | ⟨kind, v, -, -, he⟩
  · have starts : startsRun ⟨s, .execute number, waiting⟩ = true := by
      simp only [startsRun, he]
    rw [he] at settings ⊢
    refine ⟨?_, h.waiting, ?_⟩
    · have noExecLimit : v.settings.noExecLimit = false :=
        (congrArg Settings.noExecLimit settings).trans h.noExecLimit
      have limit : v.settings.runawayBudget = budget :=
        (congrArg Settings.runawayBudget settings).trans h.runawayBudget
      exact (opening_budget noExecLimit _ _).trans (congrArg some limit)
    · rw [starts]
      simp only [runsStatement, left, Task.left, Bool.toNat_true, Bool.toNat_false]
      omega
  · rw [he]
    refine .quiet trivial (List.forall_mem_cons.mpr ⟨trivial, h.waiting⟩) rfl ?_
    simp only [left, Task.left, List.map_cons, Waiting.left, List.sum_cons]
    omega
  · rw [he]
    exact .quiet trivial h.waiting rfl (Nat.le_refl _)
  · rw [he]
    exact .quiet trivial h.waiting rfl (Nat.le_refl _)

theorem fetch_spends {frame : RunFrame} {executed : Nat} {next : Int}
    (h : Budgeted budget ⟨s, .fetch frame executed next, waiting⟩) :
    Spends budget ⟨s, .fetch frame executed next, waiting⟩
      (fetch frame executed next s waiting) := by
  have limited : frame.budget = some budget := h.task
  have spent := runsStatement_left s waiting executed next limited
  rcases fetch_cases (s := s) rfl waiting with ⟨next', -, hf⟩ | ⟨n, next', body, -, -, hf⟩ |
    ⟨-, hf⟩ | ⟨kind, -, hf⟩ <;> rw [hf]
  · refine ⟨limited, h.waiting, ?_⟩
    simp only [left, Task.left]
    omega
  · refine ⟨trivial, List.forall_mem_cons.mpr ⟨limited, h.waiting⟩, ?_⟩
    simp only [left, Task.left, List.map_cons, Waiting.left, List.sum_cons]
    omega
  · refine ⟨trivial, h.waiting, ?_⟩
    simp only [left, Task.left]
    omega
  · refine ⟨trivial, h.waiting, ?_⟩
    simp only [left, Task.left, crash]
    omega

theorem conclude_spends {p : HostProgram} {outcome : Except Fault Unit}
    (h : Budgeted budget ⟨s, .perform p, waiting⟩) (hn : conclude outcome s waiting = some c') :
    Spends budget ⟨s, .perform p, waiting⟩ c' := by
  have waits := h.waiting
  rcases conclude_cases hn with ⟨frame, executed, next, rest, rfl, -, rfl⟩ |
    ⟨frame, executed, next, rest, kind, rfl, -, rfl⟩ | ⟨m, rest, rfl, rfl⟩ <;>
    obtain ⟨first, others⟩ := List.forall_mem_cons.mp waits
  · refine .quiet first others rfl ?_
    simp only [left, Task.left, List.map_cons, Waiting.left, List.sum_cons]
    omega
  · refine .quiet trivial others rfl ?_
    simp only [left, Task.left, List.map_cons, List.sum_cons, crash]
    omega
  · refine .quiet trivial others rfl ?_
    simp only [left, Task.left, List.map_cons, List.sum_cons, settle]
    omega

theorem next_spends (h : c.Budgeted budget) (hn : c.next = some c') : Spends budget c c' := by
  obtain ⟨s, task, waiting⟩ := c
  cases task with
  | execute number =>
    cases hn
    exact execute_spends h
  | fetch frame executed next =>
    cases hn
    exact fetch_spends h
  | unwind m exitDepth outcome =>
    cases hn
    simp only [unwind]
    split
    · exact .quiet trivial h.waiting rfl (Nat.le_refl _)
    · exact .quiet trivial h.waiting rfl (Nat.le_refl _)
  | answer outcome =>
    obtain ⟨k, rest, hw, rfl⟩ := answer_cases rfl hn
    dsimp only at hw
    subst hw
    refine .quiet trivial (List.forall_mem_cons.mp h.waiting).2 rfl ?_
    simp only [left, Task.left, List.map_cons, List.sum_cons]
    omega
  | perform p =>
    rcases perform_cases hn with ⟨outcome, -, hc⟩ | ⟨number, k, -, rfl⟩ | ⟨s', p', rfl, -, -⟩
    · exact conclude_spends h hc
    · refine .quiet trivial (List.forall_mem_cons.mpr ⟨trivial, h.waiting⟩) rfl ?_
      simp only [left, Task.left, List.map_cons, Waiting.left, List.sum_cons]
      omega
    · exact .quiet trivial h.waiting rfl (Nat.le_refl _)

theorem Budgeted.next (h : c.Budgeted budget) (hn : c.next = some c') : c'.Budgeted budget := by
  have settings := next_settings hn
  have spends := next_spends h hn
  refine ⟨?_, ?_, spends.task, spends.waiting⟩
  · rw [settings]
    exact h.noExecLimit
  · rw [settings]
    exact h.runawayBudget

theorem Budgeted.after {n : Nat} {d : Configuration} (h : c.Budgeted budget)
    (hd : after n c = some d) : d.Budgeted budget :=
  after_invariant h (fun _ _ budgeted hn => budgeted.next hn) hd

theorem counted_next (hn : c.next = none) : runsStatement c = false ∧ startsRun c = false := by
  obtain ⟨s, task, waiting⟩ := c
  cases task with
  | execute number => cases hn
  | fetch frame executed next => cases hn
  | _ => exact ⟨rfl, rfl⟩

/-- What has been run and what is left come from the runs in progress at the start and from those
started since. -/
theorem statementsRun_left (h : c.Budgeted budget) (n : Nat) :
    statementsRun n c + ((after n c).map (left budget)).getD 0 ≤
      left budget c + budget * runsStarted n c := by
  simp only [statementsRun, runsStarted]
  induction n with
  | zero => exact Nat.le_of_eq (Nat.add_comm _ _)
  | succ n ih =>
    rw [tally_succ, tally_succ, after_succ]
    cases hd : after n c with
    | none =>
      rw [hd] at ih
      simp only [Option.any_none, Option.bind_none, Option.map_none, Bool.toNat_false] at ih ⊢
      exact ih
    | some d =>
      rw [hd] at ih
      simp only [Option.any_some, Option.bind_some, Option.map_some, Option.getD_some] at ih ⊢
      cases hn : d.next with
      | none =>
        obtain ⟨runs, starts⟩ := counted_next hn
        rw [runs, starts]
        simp only [Bool.toNat_false, Option.map_none, Option.getD_none, Nat.add_zero]
        omega
      | some d' =>
        have spends := (next_spends (h.after hd) hn).spent
        simp only [Option.map_some, Option.getD_some, Nat.mul_add]
        omega

/-- An execution runs no more statements than the limit allows for each run that it starts: its own,
and one for each time that a builtin executes a bytecode function again. -/
theorem statementsRun_le {s : Session} (limited : s.machine.settings.noExecLimit = false)
    (number n : Nat) :
    statementsRun n (start number s) ≤
      s.machine.settings.runawayBudget * runsStarted n (start number s) := by
  have started : (start number s).Budgeted s.machine.settings.runawayBudget :=
    ⟨limited, rfl, trivial, nofun⟩
  have spent := statementsRun_left started n
  have none : left s.machine.settings.runawayBudget (start number s) = 0 := rfl
  omega

end Configuration

/-- A module whose first function calls a builtin and returns, and whose second function returns. -/
def againImage : Text.Bytes :=
  { Builder.empty with
    statements := #[.null, Session.bareCall 28, ⟨Opcode.done.code, 0, 0, 0⟩,
      ⟨Opcode.done.code, 0, 0, 0⟩]
    functions := #[.null,
      { FunctionRecord.null with entry := 1 }, { FunctionRecord.null with entry := 3 },
      { FunctionRecord.null with entry := -1 }]
    globals := Builder.empty.globals ++ #[3] : Builder }.bytes

theorem againImage_loads :
    (Machine.load againImage 0 0 { runawayBudget := 2 }).toOption.isSome := by decide +kernel

namespace Session

def again : Session :=
  ⟨(Machine.load againImage 0 0 { runawayBudget := 2 }).toOption.get againImage_loads,
    [⟨1, "again", .execute 2 fun _ => .done⟩]⟩

end Session

namespace Configuration

theorem again_limited : Session.again.machine.settings.noExecLimit = false := by decide +kernel

theorem again_within : Session.again.machine.settings.noExecLimit = false ∧
    statementsRun 20 (start 1 .again) ≤
      Session.again.machine.settings.runawayBudget * runsStarted 20 (start 1 .again) :=
  ⟨again_limited, statementsRun_le again_limited 1 20⟩

/-- The execution of the first function finishes, although it runs three statements in two runs: the
limit of two holds for each of them and not for both together. -/
theorem again_past_budget : Session.again.machine.settings.noExecLimit = false ∧
    (Session.execute 9 1 .again).1 = .finished ∧
    Session.again.machine.settings.runawayBudget < statementsRun 20 (start 1 .again) ∧
    runsStarted 20 (start 1 .again) = 2 := by
  refine ⟨again_limited, ?_, ?_, ?_⟩ <;> decide +kernel

end Configuration
end GameBytecode
