import GameBytecode.Proofs.StatementCalls

/-!
Machines that differ in what calls and returns do not look at. They enter and leave functions in the
same way; if statements do the same on them, so does a turn of a run.
-/
namespace GameBytecode
namespace Machine

def setControl (v : Machine) (control : CallState) : Machine := { v with control }

def setArgc (v : Machine) (argc : Nat) : Machine := { v with argc }

theorem enter_of_admission {v : Machine} {m : Module} {number : Nat} {f : FunctionRecord}
    (h : v.admission m number = .ok f) :
    v.enter m number =
      ((passArguments v.settings.deadbeefLocals f v.argc v.store).1.map fun _ => f.entry.toInt.toNat,
        (v.setControl (v.control.save number (v.store.memory.region f))).setStore
          (passArguments v.settings.deadbeefLocals f v.argc v.store).2) := by
  unfold enter
  rw [h]
  rfl

/-- A change of machines that has nothing to do with the store, the calls and the number of arguments. -/
structure Aside (change : Machine → Machine) : Prop where
  store : ∀ (v : Machine) store, change (v.setStore store) = (change v).setStore store
  control : ∀ (v : Machine) control, change (v.setControl control) = (change v).setControl control
  argc : ∀ (v : Machine) argc, change (v.setArgc argc) = (change v).setArgc argc

namespace Aside
variable {change : Machine → Machine} (h : Aside change) (v : Machine) (m : Module)
include h

theorem store_eq : (change v).store = v.store :=
  (congrArg Machine.store (h.store v v.store)).trans rfl

theorem control_eq : (change v).control = v.control :=
  (congrArg Machine.control (h.control v v.control)).trans rfl

theorem argc_eq : (change v).argc = v.argc := (congrArg Machine.argc (h.argc v v.argc)).trans rfl

theorem depth_eq : (change v).depth = v.depth := congrArg (·.calls.depth) (h.control_eq v)

theorem restoreLocals :
    (change v).restoreLocals m = ((v.restoreLocals m).1, change (v.restoreLocals m).2) := by
  simp only [Machine.restoreLocals]
  rw [h.control_eq]
  cases m.function? v.control.function with
  | none => rfl
  | some f =>
    dsimp only
    by_cases outside : v.control.function = 0
    · simp only [if_pos outside]
    · simp only [if_neg outside]
      cases v.control.saved.top? f.locals.toNat with
      | error e => rfl
      | ok words =>
        simp only [act_eq]
        rw [h.store_eq, ← h.store]
        generalize v.setStore (Action.put f.start.toNat words v.store).2 = u
        cases (Action.put f.start.toNat words v.store).1 with
        | error e => rfl
        | ok done =>
          have dropped := h.control u
            { u.control with saved := u.control.saved.drop f.locals.toNat }
          dsimp only
          rw [h.control_eq u]
          exact congrArg (Prod.mk (Except.ok ())) dropped.symm

theorem leave : (change v).leave m = ((v.leave m).1, change (v.leave m).2) := by
  simp only [Machine.leave]
  rw [h.control_eq]
  cases v.control.calls.pop with
  | error e => rfl
  | ok popped =>
    have restored := h.restoreLocals (v.setControl { v.control with calls := popped.2 }) m
    rw [h.control] at restored
    have resumed (u : Machine) :
        (change u).setControl { (change u).control with
            statement := popped.1.statement, function := popped.1.function } =
          change (u.setControl { u.control with
            statement := popped.1.statement, function := popped.1.function }) := by
      rw [h.control_eq, h.control]
    exact (congrArg (fun r : Except Fault Unit × Machine => (r.1, r.2.setControl
      { r.2.control with statement := popped.1.statement, function := popped.1.function }))
      restored).trans (congrArg (Prod.mk _) (resumed _))

theorem unwind (depth : Nat) : (change v).unwind m depth = change (v.unwind m depth) := by
  induction hd : v.depth - depth generalizing v with
  | zero =>
    have reached : v.depth ≤ depth := Nat.le_of_sub_eq_zero hd
    rw [unwind_of_le reached, unwind_of_le (by rwa [h.depth_eq])]
  | succ n ih =>
    have deeper : depth < v.depth := by omega
    have lower := leave_depth v m
    rw [unwind_of_lt deeper, unwind_of_lt (by rwa [h.depth_eq]), h.leave]
    exact ih (v.leave m).2 (by omega)

theorem returnFrom (value : UInt16) :
    (change v).returnFrom m value = ((v.returnFrom m value).1, change (v.returnFrom m value).2) := by
  simp only [Machine.returnFrom, act_eq]
  rw [h.store_eq, ← h.store]
  cases (Action.copy value.toNat Address.result 3 v.store).1 with
  | error e => rfl
  | ok done => exact h.leave _ m

section entering
variable (poison : ∀ v, (change v).settings.deadbeefLocals = v.settings.deadbeefLocals)
include poison

theorem enter (number : Nat) :
    (change v).enter m number = ((v.enter m number).1, change (v.enter m number).2) := by
  have admitted : (change v).admission m number = v.admission m number := by
    simp only [admission]
    rw [h.control_eq, h.store_eq]
  cases ha : v.admission m number with
  | error e =>
    unfold Machine.enter
    rw [admitted, ha]
  | ok f =>
    rw [enter_of_admission ha, enter_of_admission (admitted.trans ha), h.control_eq, h.store_eq,
      h.argc_eq, poison, h.store, h.control]

theorem call (index number : Nat) :
    (change v).call m index number = ((v.call m index number).1, change (v.call m index number).2) := by
  simp only [Machine.call]
  split
  · rfl
  · rfl
  · rw [h.enter v m poison]
    cases v.enter m number with
    | mk result u => cases result <;> rfl

theorem follow (frame : RunFrame) (index : Nat) (control : Control) :
    (change v).follow frame index control =
      ((v.follow frame index control).1, change (v.follow frame index control).2) := by
  cases control with
  | next => rfl
  | jump target => rfl
  | call function argc =>
    have called := h.call (v.setArgc argc) frame.program poison index function.toNat
    rw [h.argc] at called
    exact called
  | ret value =>
    simp only [Machine.follow, h.returnFrom]
    cases v.returnFrom frame.program value with
    | mk result u =>
      cases result with
      | error e => rfl
      | ok _ =>
        dsimp only
        rw [h.depth_eq, h.control_eq]
        split <;> rfl

theorem turn {stops : Fault → Prop}
    (hr : ∀ m index, change (v.record m index) = (change v).record m index)
    (hs : ∀ (m : Module) (index : Nat) (s : Statement) (st : Store),
      (∃ e, (step v.settings m index s st).1 = .error e ∧ stops e) ∨
        step (change v).settings m index s st = step v.settings m index s st)
    (frame : RunFrame) (executed : Nat) (next : Int) :
    (∃ e, (v.turn frame executed next).1 = .fault e ∧ stops e) ∨
      (change v).turn frame executed next =
        ((v.turn frame executed next).1, change (v.turn frame executed next).2) := by
  unfold Machine.turn
  split
  · exact .inr rfl
  split
  · exact .inr rfl
  cases frame.program.statements[next.toNat]? with
  | none => exact .inr rfl
  | some st =>
    have stepped := hs frame.program next.toNat st v.store
    simp only [act_eq, record_settings, record_store]
    rw [h.store_eq]
    generalize step v.settings frame.program next.toNat st v.store = effect at stepped ⊢
    obtain ⟨result, store⟩ := effect
    rcases stepped with ⟨e, he, refused⟩ | same
    · left
      dsimp only at he
      rw [he]
      exact ⟨e, rfl, refused⟩
    · right
      rw [same, ← hr, ← h.store]
      cases result with
      | error e => rfl
      | ok control => exact h.follow _ poison frame next.toNat control

end entering
end Aside
end Machine
end GameBytecode
