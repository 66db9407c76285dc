import GameBytecode.Proofs.MachineChange
import GameBytecode.Proofs.RecentLines
import GameBytecode.Proofs.StatementCount

/-!
What a machine records of the statements that it runs. The record is an account of the statements
fetched, in order: each is counted for the function that was current, and if tracing is on its line is
added to the trace, as it stood before the statement ran.
-/
namespace GameBytecode

/-- A statement that has been fetched, with the function that was current and memory as it was. -/
structure Fetched where
  program : Module
  function : Nat
  statement : Nat
  memory : Memory

def Fetched.line (f : Fetched) : String := Listing.line f.program f.memory f.statement

/-- What a machine records of the statements that it runs. -/
structure Ledger where
  profile : Array Nat
  trace : TraceBuffer
  tracing : Bool

namespace Ledger

/-- Counts a statement, and traces it. -/
def post (l : Ledger) (f : Fetched) : Ledger :=
  { l with
    profile := l.profile.modify f.function (· + 1)
    trace := if l.tracing then l.trace.push f.line else l.trace }

def postAll (l : Ledger) (log : List Fetched) : Ledger := log.foldl post l

variable (l : Ledger) (log : List Fetched)

theorem postAll_append (log' : List Fetched) :
    l.postAll (log ++ log') = (l.postAll log).postAll log' := List.foldl_append

theorem postAll_tracing : (l.postAll log).tracing = l.tracing := by
  induction log generalizing l with
  | nil => rfl
  | cons f log ih => exact ih (l.post f)

theorem postAll_profile (function : Nat) :
    (l.postAll log).profile[function]? =
      l.profile[function]?.map (· + log.countP (·.function = function)) := by
  induction log generalizing l with
  | nil => exact Option.map_id'.symm
  | cons f log ih =>
    refine (ih (l.post f)).trans ?_
    simp only [post]
    rw [Array.getElem?_modify, List.countP_cons]
    by_cases own : f.function = function
    · rw [if_pos own, Option.map_map]
      simp only [own, decide_true, if_true]
      congr 1
      funext count
      exact Nat.add_right_comm count 1 _
    · simp only [own, decide_false, Bool.false_eq_true, if_false, Nat.add_zero]

theorem postAll_size : (l.postAll log).profile.size = l.profile.size := by
  induction log generalizing l with
  | nil => rfl
  | cons f log ih => exact (ih (l.post f)).trans Array.size_modify

theorem postAll_trace :
    (l.postAll log).trace =
      if l.tracing then (log.map Fetched.line).foldl TraceBuffer.push l.trace else l.trace := by
  induction log generalizing l with
  | nil => exact (ite_self _).symm
  | cons f log ih =>
    refine (ih (l.post f)).trans ?_
    simp only [post]
    by_cases on : l.tracing = true
    · simp only [if_pos on]
      rfl
    · simp only [if_neg on]

end Ledger

namespace Machine

def ledger (v : Machine) : Ledger := ⟨v.profile, v.trace, v.tracing⟩

def withLedger (v : Machine) (l : Ledger) : Machine :=
  { v with profile := l.profile, trace := l.trace, tracing := l.tracing }

theorem withLedger_aside (l : Ledger) : Aside (·.withLedger l) :=
  ⟨fun _ _ => rfl, fun _ _ => rfl, fun _ _ => rfl⟩

variable (v : Machine) (m : Module)

/-! Calls and returns do the same whatever the record is. With the one that there is, this says that
they keep it. -/

theorem leave_ledger : (v.leave m).2.ledger = v.ledger :=
  (congrArg (·.2.ledger) ((withLedger_aside v.ledger).leave v m)).trans rfl

theorem enter_ledger (number : Nat) : (v.enter m number).2.ledger = v.ledger :=
  (congrArg (·.2.ledger) ((withLedger_aside v.ledger).enter v m (fun _ => rfl) number)).trans rfl

theorem follow_ledger (frame : RunFrame) (index : Nat) (control : Control) :
    (v.follow frame index control).2.ledger = v.ledger :=
  (congrArg (·.2.ledger)
    ((withLedger_aside v.ledger).follow v (fun _ => rfl) frame index control)).trans rfl

theorem record_ledger (index : Nat) :
    (v.record m index).ledger =
      v.ledger.post ⟨m, v.control.function, index, v.store.memory⟩ := by
  obtain ⟨own, capacity, heapBytes, program, store, control, argc, profile, trace, tracing,
    console⟩ := v
  cases tracing <;> rfl

end Machine

namespace Configuration

/-- The statement that the next step runs. -/
def fetched? (c : Configuration) : Option Fetched :=
  match c.task with
  | .fetch frame _ next =>
    if runsStatement c then
      some ⟨frame.program, c.machine.control.function, next.toNat, c.machine.store.memory⟩
    else none
  | _ => none

/-- The statements run in the first steps from a configuration, in order. -/
def log (n : Nat) (c : Configuration) : List Fetched :=
  (List.range n).filterMap fun k => (after k c).bind fetched?

theorem log_succ (n : Nat) (c : Configuration) :
    log (n + 1) c = log n c ++ ((after n c).bind fetched?).toList := by
  rw [log, List.range_succ, List.filterMap_append, List.filterMap_cons, List.filterMap_nil]
  cases (after n c).bind fetched? <;> rfl

theorem turn_ledger (frame : RunFrame) (executed : Nat) (next : Int) (s : Session)
    (waiting : List Waiting) :
    (s.machine.turn frame executed next).2.ledger =
      s.machine.ledger.postAll (fetched? ⟨s, .fetch frame executed next, waiting⟩).toList := by
  simp only [fetched?, runsStatement, Machine.turn]
  by_cases reached : frame.budget.any (· ≤ executed) = true
  · simp only [reached]
    rfl
  by_cases negative : next < 0
  · simp only [if_neg reached, if_pos negative, decide_eq_false (Int.not_le.mpr negative),
      Bool.and_false, Bool.false_and]
    rfl
  simp only [if_neg negative, decide_eq_true (Int.not_lt.mp negative),
    Bool.eq_false_iff.mpr reached, Bool.not_false, Bool.true_and]
  cases hs : frame.program.statements[next.toNat]? with
  | none =>
    rw [decide_eq_false (Nat.not_lt.mpr (Array.getElem?_eq_none_iff.mp hs))]
    rfl
  | some st =>
    obtain ⟨inside, -⟩ := Array.getElem?_eq_some_iff.mp hs
    rw [decide_eq_true inside]
    have recorded := s.machine.record_ledger frame.program next.toNat
    simp only [Machine.act_eq]
    generalize step _ _ _ _ _ = effect
    obtain ⟨result, store⟩ := effect
    cases result with
    | error e => exact recorded
    | ok control => exact (Machine.follow_ledger _ frame next.toNat control).trans recorded

variable {c c' : Configuration}

/-- A step records the statement that it runs, or switches tracing, or puts another module in place. -/
theorem next_ledger (hn : c.next = some c') :
    c'.machine.ledger = c.machine.ledger.postAll c.fetched?.toList ∨
    (∃ on k, c.task = .perform (.setTracing on k) ∧
      c'.machine.ledger = { c.machine.ledger with tracing := on }) ∨
    ∃ image k, c.task = .perform (.reload image k) ∧ c.machine.reload image = .ok c'.machine := by
  obtain ⟨s, task, waiting⟩ := c
  cases task with
  | execute number =>
    cases hn
    have entered {result : Except Fault Nat} {v : Machine}
        (he : (s.onMachine Machine.beginRun).machine.enter s.machine.program number = (result, v)) :
        v.ledger = s.machine.ledger := by
      have kept := (s.onMachine Machine.beginRun).machine.enter_ledger s.machine.program number
      rw [he] at kept
      exact kept
    left
    rcases execute_cases number s waiting with ⟨first, v, -, he, h⟩ | ⟨n, body, -, -, h⟩ |
      ⟨kind, h, -⟩ | ⟨kind, v, -, he, h⟩ <;> rw [h]
    · exact entered he
    · rfl
    · rfl
    · exact entered he
  | fetch frame executed next =>
    cases hn
    left
    have recorded := turn_ledger frame executed next s waiting
    cases ht : s.machine.turn frame executed next with
    | mk turn v =>
      rw [ht] at recorded
      rcases fetch_cases ht waiting with ⟨next', -, h⟩ | ⟨n, next', body, -, -, h⟩ | ⟨-, h⟩ |
        ⟨kind, -, h⟩ <;> rw [h] <;> exact recorded
  | unwind m exitDepth outcome =>
    cases hn
    left
    simp only [unwind]
    split
    · exact s.machine.leave_ledger m
    · rfl
  | answer outcome =>
    obtain ⟨k, rest, -, rfl⟩ := answer_cases rfl hn
    exact .inl rfl
  | perform p =>
    have concluded {outcome : Except Fault Unit} (h : conclude outcome s waiting = some c') :
        c'.machine.ledger = s.machine.ledger := by
      rcases conclude_cases h with ⟨frame, executed, next, rest, -, -, rfl⟩ |
        ⟨frame, executed, next, rest, kind, -, -, rfl⟩ | ⟨m, rest, -, rfl⟩ <;> rfl
    cases p with
    | done => exact .inl (concluded (show conclude (.ok ()) s waiting = some c' from hn))
    | fail e => exact .inl (concluded (show conclude (.error e) s waiting = some c' from hn))
    | setTracing on k =>
      cases hn
      exact .inr (.inl ⟨on, k, rfl, rfl⟩)
    | reload image k =>
      simp only [Configuration.next, perform] at hn
      split at hn
      · rename_i v hr
        cases hn
        exact .inr (.inr ⟨image, k, rfl, hr⟩)
      · cases hn
        exact .inl rfl
    | _ =>
      cases hn
      exact .inl rfl

end Configuration
end GameBytecode
