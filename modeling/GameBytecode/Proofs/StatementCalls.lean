import GameBytecode.Proofs.CallDiscipline
import GameBytecode.Proofs.StatementOutcome
import GameBytecode.Run

/-!
What one statement of a run does to the calls in progress: it keeps them, enters one function or
leaves one. Nothing that happens besides can be seen in the call state.
-/
namespace GameBytecode

/-- Whether the run goes on. -/
def Turn.Goes : Turn → Prop
  | .go _ | .builtin .. => True
  | .returned | .fault _ => False

namespace Machine
variable {m : Module}

/-- Two machines with one program and one configuration, whose memories have one size and whose
strings are in as many runs. -/
structure Kin (v v' : Machine) : Prop where
  program : v'.program = v.program
  settings : v'.settings = v.settings
  store : v.store.Alike v'.store

theorem Kin.refl (v : Machine) : v.Kin v := ⟨rfl, rfl, .refl _⟩

theorem Kin.trans {v v' v'' : Machine} (h : v.Kin v') (h' : v'.Kin v'') : v.Kin v'' :=
  ⟨h'.program.trans h.program, h'.settings.trans h.settings, h.store.trans h'.store⟩

/-- Entering a function, even when it fails half way, goes up from where the machine stands. -/
theorem enter_above (v : Machine) (m : Module) {number : Nat} (h0 : number ≠ 0) :
    v.Kin (v.enter m number).2 ∧
      v.control.Above m v.store.memory.words.size (v.enter m number).2.control ∧
      ∀ first, (v.enter m number).1 = .ok first → v.depth < (v.enter m number).2.depth := by
  rcases enter_cases v m h0 with ⟨e, he⟩ | ⟨f, enterable, frame, room, result, store, alike, he⟩
  · rw [he]
    exact ⟨.refl v, .base, fun first h => nomatch h⟩
  · rw [he]
    exact ⟨⟨rfl, rfl, alike⟩,
      .entered _ .base enterable frame room (Memory.length_region enterable.inside),
      fun _ _ => Nat.lt_succ_self _⟩

theorem leave_kin (v : Machine) (m : Module) : v.Kin (v.leave m).2 := by
  simp only [leave]
  cases v.control.calls.pop with
  | error e => exact .refl v
  | ok popped =>
    dsimp only [restoreLocals]
    cases m.function? v.control.function with
    | none => exact ⟨rfl, rfl, .refl _⟩
    | some f =>
      dsimp only
      split
      · exact ⟨rfl, rfl, .refl _⟩
      · cases v.control.saved.top? f.locals.toNat with
        | error e => exact ⟨rfl, rfl, .refl _⟩
        | ok ws =>
          have ha := Action.put_alike f.start.toNat ws v.store
          simp only [act_eq]
          cases hr : (Action.put f.start.toNat ws v.store).1 with
          | error e => exact ⟨rfl, rfl, ha⟩
          | ok _ => exact ⟨rfl, rfl, ha⟩

/-- What a statement can do to the calls in progress: nothing, enter one function or leave one. -/
inductive Shift (m : Module) (v v' : Machine) : Prop where
  | stay (statement : Nat) (control : v'.control = { v.control with statement })
  | enter (statement number : Nat) (f : FunctionRecord)
      (enterable : m.Enterable v.store.memory.words.size number f) (frame : v.control.calls.hasRoom)
      (room : v.control.saved.hasRoom f.locals.toNat)
      (control : v'.control =
        { v.control with statement }.save number (v.store.memory.region f))
  | leave (statement : Nat) (u : Machine)
      (size : u.store.memory.words.size = v.store.memory.words.size)
      (control : u.control = { v.control with statement }) (after : v' = (u.leave m).2)

theorem Shift.of_eq {v v' : Machine} (h : v'.control = v.control) : v.Shift m v' :=
  .stay v.control.statement h

theorem Shift.above {base : CallState} {v v' : Machine} (h : v.Shift m v')
    (hb : base.Above m v.store.memory.words.size v.control)
    (hd : base.calls.depth < v.control.calls.depth) :
    base.Above m v.store.memory.words.size v'.control := by
  cases h with
  | stay statement control =>
    rw [control]
    exact hb.move hd statement
  | enter statement number f enterable frame room control =>
    rw [control]
    exact .entered statement (hb.move hd statement) enterable frame room
      (Memory.length_region enterable.inside)
  | leave statement u size control after =>
    have hu : base.Above m u.store.memory.words.size u.control := by
      rw [size, control]
      exact hb.move hd statement
    obtain ⟨c, f, ws, below, -, -, -, -, hl⟩ := leave_above hu (by rw [control]; exact hd)
    rw [after, hl, ← size]
    exact below

theorem Shift.depth_le {v v' : Machine} (h : v.Shift m v') : v.depth ≤ v'.depth + 1 := by
  cases h with
  | stay statement control =>
    simp only [depth]
    rw [control]
    exact Nat.le_succ _
  | enter statement number f enterable frame room control =>
    simp only [depth]
    rw [control]
    exact Nat.le_add_right v.control.calls.depth 2
  | leave statement u size control after =>
    have lower := leave_depth u m
    have same : u.depth = v.depth := by
      simp only [depth]
      rw [control]
    rw [after]
    omega

theorem record_control (m : Module) (index : Nat) (v : Machine) :
    (v.record m index).control = { v.control with statement := index } := by
  simp only [record]
  split <;> rfl

theorem record_store (m : Module) (index : Nat) (v : Machine) :
    (v.record m index).store = v.store := by
  simp only [record]
  split <;> rfl

theorem record_settings (m : Module) (index : Nat) (v : Machine) :
    (v.record m index).settings = v.settings := by
  simp only [record]
  split <;> rfl

theorem record_program (m : Module) (index : Nat) (v : Machine) :
    (v.record m index).program = v.program := by
  simp only [record]
  split <;> rfl

/-- The machine that has run the statement at an index, with the store that the statement left. -/
def ran (v : Machine) (m : Module) (index : Nat) (store : Store) : Machine :=
  (v.record m index).setStore store

@[simp] theorem ran_store (v : Machine) (m : Module) (index : Nat) (store : Store) :
    (v.ran m index store).store = store := rfl

theorem ran_control (v : Machine) (m : Module) (index : Nat) (store : Store) :
    (v.ran m index store).control = { v.control with statement := index } :=
  record_control m index v

theorem ran_depth (v : Machine) (m : Module) (index : Nat) (store : Store) :
    (v.ran m index store).depth = v.depth :=
  congrArg (·.calls.depth) (ran_control v m index store)

theorem ran_kin {v : Machine} (m : Module) (index : Nat) {store : Store}
    (alike : v.store.Alike store) : v.Kin (v.ran m index store) :=
  ⟨record_program m index v, record_settings m index v, alike⟩

theorem callee_bytecode {number : Nat} (h : m.callee number = .ok .bytecode) : number ≠ 0 := by
  rintro rfl
  cases h

theorem executable_bytecode {number : Nat} (h : m.executable number = .ok .bytecode) :
    number ≠ 0 := by
  rintro rfl
  cases h

theorem call_kin (m : Module) (index number : Nat) (v : Machine) :
    v.Kin (v.call m index number).2 := by
  unfold call
  split
  · exact .refl v
  · exact .refl v
  · rename_i hc
    rcases enter_cases v m (callee_bytecode hc) with
        ⟨e, he⟩ | ⟨f, -, -, -, result, store, alike, he⟩
    · rw [he]
      exact .refl v
    · rw [he]
      cases result <;> exact ⟨rfl, rfl, alike⟩

theorem enter_shift (v : Machine) (m : Module) {number : Nat} (h0 : number ≠ 0) :
    v.Shift m (v.enter m number).2 := by
  rcases enter_cases v m h0 with ⟨e, he⟩ | ⟨f, enterable, frame, room, result, store, -, he⟩
  · rw [he]
    exact .of_eq rfl
  · rw [he]
    exact .enter v.control.statement number f enterable frame room rfl

theorem call_shift (m : Module) (index number : Nat) (v : Machine) :
    v.Shift m (v.call m index number).2 := by
  unfold call
  split
  · exact .of_eq rfl
  · exact .of_eq rfl
  · rename_i hc
    have entered := enter_shift v m (callee_bytecode hc)
    cases he : v.enter m number with
    | mk result u =>
      rw [he] at entered
      cases result <;> exact entered

theorem Shift.of_moved {v u v' : Machine} {statement : Nat} (h : u.Shift m v')
    (hm : u.store.memory = v.store.memory) (hc : u.control = { v.control with statement }) :
    v.Shift m v' := by
  cases h with
  | stay statement control => exact .stay statement (by rw [control, hc])
  | enter statement number f enterable frame room control =>
    refine .enter statement number f (by rw [← hm]; exact enterable) (by rw [hc] at frame; exact frame)
      (by rw [hc] at room; exact room) ?_
    rw [control, hc, hm]
  | leave statement w size control after =>
    exact .leave statement w (by rw [← hm]; exact size) (by rw [control, hc]) after

/-- A return copies the value, unless that faults, and leaves the function. -/
theorem returnFrom_cases (m : Module) (value : UInt16) (v : Machine) :
    ∃ store, v.store.Alike store ∧
      ((∃ e, v.returnFrom m value = (.error e, v.setStore store) ∧
          ∃ address, e = .invalidGlobal address) ∨
        v.act (Action.copy value.toNat Address.result 3) = (.ok (), v.setStore store) ∧
          v.returnFrom m value = (v.setStore store).leave m) := by
  refine ⟨_, Action.copy_alike value.toNat Address.result 3 v.store, ?_⟩
  unfold returnFrom
  rw [act_eq]
  cases hr : (Action.copy value.toNat Address.result 3 v.store).1 with
  | ok _ => exact .inr ⟨rfl, rfl⟩
  | error e =>
    exact .inl ⟨e, rfl, Action.copy_error hr⟩

/-- A turn faults before it fetches, at the limit of the run or outside the statements, or it runs the
statement fetched and does what that asks for. -/
theorem turn_cases (frame : RunFrame) (executed : Nat) (next : Int) (v : Machine) :
    (∃ kind, v.turn frame executed next = (.fault kind, v) ∧
      (kind = .runawayLoop (frame.budget.getD 0) ∧ frame.budget.any (· ≤ executed) ∨
        kind = .invalidStatement next ∧
          (next < 0 ∨ frame.program.statements.size ≤ next.toNat))) ∨
    ∃ st result store, frame.program.statements[next.toNat]? = some st ∧
      step v.settings frame.program next.toNat st v.store = (result, store) ∧
      v.turn frame executed next = match result with
        | .error e => (.fault e, v.ran frame.program next.toNat store)
        | .ok control => (v.ran frame.program next.toNat store).follow frame next.toNat control := by
  unfold turn
  split
  · rename_i reached
    exact .inl ⟨_, rfl, .inl ⟨rfl, reached⟩⟩
  split
  · rename_i negative
    exact .inl ⟨_, rfl, .inr ⟨rfl, .inl negative⟩⟩
  cases hs : frame.program.statements[next.toNat]? with
  | none => exact .inl ⟨_, rfl, .inr ⟨rfl, .inr (Array.getElem?_eq_none_iff.mp hs)⟩⟩
  | some st =>
    cases hr : step v.settings frame.program next.toNat st v.store with
    | mk result store =>
      refine .inr ⟨st, result, store, rfl, hr, ?_⟩
      simp only [act_eq, record_settings, record_store, hr]
      cases result <;> rfl

theorem step_alike {settings : Settings} {index : Nat} {s : Statement} {st store : Store}
    {result : Except Fault Control} (h : step settings m index s st = (result, store)) :
    st.Alike store := by
  unfold step at h
  rw [show store = _ from (congrArg Prod.snd h).symm]
  exact Plan.run_alike s _ st

theorem follow_ret (frame : RunFrame) (index : Nat) (v : Machine) (value : UInt16) :
    v.follow frame index (.ret value) = match v.returnFrom frame.program value with
      | (.error e, v) => (.fault e, v)
      | (.ok (), v) =>
        if v.depth = frame.exitDepth then (.returned, v)
        else (.go (v.control.statement + 1), v) := rfl

theorem follow_ret_machine (frame : RunFrame) (index : Nat) (v : Machine) (value : UInt16) :
    (v.follow frame index (.ret value)).2 = (v.returnFrom frame.program value).2 := by
  rw [follow_ret]
  cases v.returnFrom frame.program value with
  | mk result u =>
    cases result with
    | error e => rfl
    | ok _ =>
      dsimp only
      split <;> rfl

theorem follow_kin (frame : RunFrame) (index : Nat) (v : Machine) (control : Control) :
    v.Kin (v.follow frame index control).2 := by
  cases control with
  | next => exact .refl v
  | jump target => exact .refl v
  | call function argc =>
    have h := call_kin frame.program index function.toNat { v with argc }
    exact ⟨h.program, h.settings, h.store⟩
  | ret value =>
    rw [follow_ret_machine]
    obtain ⟨store, alike, ⟨e, he, -⟩ | ⟨-, he⟩⟩ := returnFrom_cases frame.program value v
    · rw [he]
      exact ⟨rfl, rfl, alike⟩
    · rw [he]
      have hl := leave_kin (v.setStore store) frame.program
      exact ⟨hl.program, hl.settings, alike.trans hl.store⟩

theorem turn_kin (frame : RunFrame) (executed : Nat) (next : Int) (v : Machine) :
    v.Kin (v.turn frame executed next).2 := by
  rcases turn_cases frame executed next v with ⟨kind, ht, -⟩ | ⟨st, result, store, -, hs, ht⟩
  · rw [ht]
    exact .refl v
  · have hk := ran_kin frame.program next.toNat (step_alike hs)
    rw [ht]
    cases result with
    | error e => exact hk
    | ok control => exact hk.trans (follow_kin ..)

theorem turn_shift (frame : RunFrame) (executed : Nat) (next : Int) (v : Machine) :
    v.Shift frame.program (v.turn frame executed next).2 := by
  rcases turn_cases frame executed next v with ⟨kind, ht, -⟩ | ⟨st, result, store, -, hs, ht⟩
  · rw [ht]
    exact .of_eq rfl
  · have moved := ran_control v frame.program next.toNat store
    rw [ht]
    cases result with
    | error e => exact .stay next.toNat moved
    | ok control =>
      cases control with
      | next => exact .stay next.toNat moved
      | jump target => exact .stay next.toNat moved
      | call function argc =>
        have called := call_shift frame.program next.toNat function.toNat
          { v.ran frame.program next.toNat store with argc }
        exact called.of_moved (congrArg Store.memory (step_call hs)) moved
      | ret value =>
        dsimp only
        rw [follow_ret_machine]
        obtain ⟨store', alike, ⟨e, he, -⟩ | ⟨-, he⟩⟩ := returnFrom_cases frame.program value
          (v.ran frame.program next.toNat store)
        · rw [he]
          exact .stay next.toNat moved
        · have size := ((step_alike hs).trans alike).size
          rw [he]
          exact .leave next.toNat (v.ran frame.program next.toNat store') size moved rfl

theorem call_depth (m : Module) (index number : Nat) (v : Machine) :
    v.depth ≤ (v.call m index number).2.depth := by
  unfold call
  split
  · exact Nat.le_refl _
  · exact Nat.le_refl _
  · rename_i hc
    rcases enter_cases v m (callee_bytecode hc) with ⟨e, he⟩ | ⟨f, -, -, -, result, store, -, he⟩
    · exact Nat.le_of_eq (by rw [he])
    · rw [he]
      cases result <;> exact Nat.le_succ _

/-- A run that goes on has left no function, or one above the depth at which it ends. -/
theorem turn_goes {frame : RunFrame} {executed : Nat} {next : Int} {v : Machine}
    (h : (v.turn frame executed next).1.Goes) :
    v.depth ≤ (v.turn frame executed next).2.depth ∨
      (v.turn frame executed next).2.depth ≠ frame.exitDepth := by
  rcases turn_cases frame executed next v with ⟨kind, ht, -⟩ | ⟨st, result, store, -, hs, ht⟩
  · rw [ht] at h
    exact h.elim
  · have depth_le : v.depth ≤ (v.ran frame.program next.toNat store).depth :=
      Nat.le_of_eq (ran_depth ..).symm
    rw [ht] at h ⊢
    cases result with
    | error e => exact h.elim
    | ok control =>
      cases control with
      | next => exact .inl depth_le
      | jump target => exact .inl depth_le
      | call function argc =>
        have deeper := call_depth frame.program next.toNat function.toNat
          { v.ran frame.program next.toNat store with argc }
        exact .inl (Nat.le_trans depth_le deeper)
      | ret value =>
        dsimp only at h ⊢
        rw [follow_ret] at h ⊢
        split at h
        · exact h.elim
        · split at h
          · exact h.elim
          · rename_i hne
            rw [if_neg hne]
            exact .inr hne

/-- A turn of a run keeps above the depth at which the run ends, and comes to it only by ending. -/
theorem turn_above {frame : RunFrame} {v : Machine} {base : CallState} (executed : Nat) (next : Int)
    (hb : base.Above frame.program v.store.memory.words.size v.control)
    (low : base.calls.depth ≤ frame.exitDepth) (hd : frame.exitDepth < v.depth) :
    base.Above frame.program v.store.memory.words.size (v.turn frame executed next).2.control ∧
      frame.exitDepth ≤ (v.turn frame executed next).2.depth ∧
      ((v.turn frame executed next).1.Goes →
        frame.exitDepth < (v.turn frame executed next).2.depth) := by
  have shift := turn_shift frame executed next v
  have reached : frame.exitDepth ≤ (v.turn frame executed next).2.depth :=
    Nat.le_of_lt_succ (Nat.lt_of_lt_of_le hd shift.depth_le)
  refine ⟨shift.above hb (Nat.lt_of_le_of_lt low hd), reached, ?_⟩
  intro goes
  rcases turn_goes goes with stayed | elsewhere
  · exact Nat.lt_of_lt_of_le hd stayed
  · exact Nat.lt_of_le_of_ne reached (Ne.symm elsewhere)

theorem follow_call_depth (frame : RunFrame) (index : Nat) (v : Machine) (function : Word)
    (argc : Nat) : v.depth ≤ (v.follow frame index (.call function argc)).2.depth :=
  call_depth frame.program index function.toNat { v with argc }

/-- A turn that goes down leaves a function by a return whose value has been copied. -/
theorem turn_leaves {frame : RunFrame} {executed : Nat} {next : Int} {v : Machine}
    (h : (v.turn frame executed next).2.depth < v.depth) :
    ∃ st store, frame.program.statements[next.toNat]? = some st ∧
      (Opcode.ofCode? st.op = some .done ∨ Opcode.ofCode? st.op = some .ret) ∧
      Action.copy st.a.toNat Address.result 3 v.store = (.ok (), store) ∧
      (v.turn frame executed next).2 =
        ((v.ran frame.program next.toNat store).leave frame.program).2 := by
  rcases turn_cases frame executed next v with ⟨kind, ht, -⟩ | ⟨st, result, store, fetched, hs, ht⟩
  · rw [ht] at h
    exact absurd h (Nat.lt_irrefl _)
  · have stays (store : Store) : ¬ (v.ran frame.program next.toNat store).depth < v.depth := by
      rw [ran_depth]
      exact Nat.lt_irrefl _
    rw [ht] at h ⊢
    cases result with
    | error e => exact absurd h (stays store)
    | ok control =>
      cases control with
      | next => exact absurd h (stays store)
      | jump target => exact absurd h (stays store)
      | call function argc =>
        have deeper := follow_call_depth frame next.toNat (v.ran frame.program next.toNat store)
          function argc
        exact absurd (Nat.lt_of_le_of_lt deeper h) (stays store)
      | ret value =>
        obtain ⟨rfl, rfl, returns⟩ := step_ret hs
        dsimp only at h ⊢
        rw [follow_ret_machine] at h ⊢
        obtain ⟨store', -, ⟨e, he, -⟩ | ⟨copied, he⟩⟩ := returnFrom_cases frame.program st.a
          (v.ran frame.program next.toNat v.store)
        · rw [he] at h
          exact absurd h (stays store')
        · rw [act_eq] at copied
          obtain ⟨hc, hm⟩ := Prod.ext_iff.mp copied
          have copy : Action.copy st.a.toNat Address.result 3 v.store = (.ok (), store') :=
            Prod.ext hc (congrArg Machine.store hm)
          exact ⟨st, store', fetched, returns, copy, by rw [he]; rfl⟩

end Machine
end GameBytecode
