import GameBytecode.Proofs.StatementCalls
import GameBytecode.Proofs.Transition

/-!
Executing a function as a whole and step by step come to the same. Where the bound on the work is
too small there are at least as many steps.
-/
namespace GameBytecode

/-- The ending with an outcome. -/
def Ending.ofOutcome {ε : Type} : Except ε Unit → Ending ε
  | .ok () => .finished
  | .error e => .failed e

/-- The program that ends at once with an outcome. -/
def HostProgram.ofOutcome : Except Fault Unit → HostProgram
  | .ok () => .done
  | .error e => .fail e

open Session

namespace Configuration

/-- The steps from a configuration agree with an ending: they come to the configuration of its
outcome, or there are as many as the bound on the work. -/
def Agrees {ε : Type} (c : Configuration) (bound : Nat) (target : Except ε Unit → Configuration) :
    Ending ε → Prop
  | .finished => ∃ n, after n c = some (target (.ok ()))
  | .failed e => ∃ n, after n c = some (target (.error e))
  | .exhausted => (after bound c).isSome

namespace Agrees
variable {ε : Type} {c d : Configuration} {bound : Nat} {target : Except ε Unit → Configuration}
  {ending : Ending ε}

theorem weaken {bound' : Nat} (h : Agrees c bound target ending) (hle : bound' ≤ bound) :
    Agrees c bound' target ending := by
  cases ending with
  | finished => exact h
  | failed e => exact h
  | exhausted => exact after_isSome_of_le h hle

theorem steps {n : Nat} (hn : after n c = some d) (h : Agrees d bound target ending) :
    Agrees c (n + bound) target ending := by
  have split (k : Nat) : after (n + k) c = after k d := by rw [after_add, hn, Option.bind_some]
  cases ending with
  | finished =>
    obtain ⟨k, hk⟩ := h
    exact ⟨n + k, (split k).trans hk⟩
  | failed e =>
    obtain ⟨k, hk⟩ := h
    exact ⟨n + k, (split k).trans hk⟩
  | exhausted =>
    simp only [Agrees]
    rw [split]
    exact h

theorem step (hn : c.next = some d) (h : Agrees d bound target ending) :
    Agrees c (bound + 1) target ending := by
  rw [Nat.add_comm]
  exact steps (n := 1) hn h

theorem onwards {target' : Except ε Unit → Configuration} (h : Agrees c bound target ending)
    (hn : ∀ outcome, ∃ n, after n (target outcome) = some (target' outcome)) :
    Agrees c bound target' ending := by
  have join {k n : Nat} {e e' : Configuration} (hk : after k c = some e) (hn : after n e = some e') :
      after (k + n) c = some e' := by rw [after_add, hk, Option.bind_some, hn]
  cases ending with
  | finished =>
    obtain ⟨k, hk⟩ := h
    obtain ⟨n, hn⟩ := hn (.ok ())
    exact ⟨k + n, join hk hn⟩
  | failed e =>
    obtain ⟨k, hk⟩ := h
    obtain ⟨n, hn⟩ := hn (.error e)
    exact ⟨k + n, join hk hn⟩
  | exhausted => exact h

end Agrees

/-- What a bound on the work gives of an execution agrees with the steps of it. -/
def ExecuteAgrees (fuel : Nat) : Prop :=
  ∀ (number : Nat) (s : Session) (waiting : List Waiting),
    Agrees ⟨s, .execute number, waiting⟩ fuel
      (fun outcome => ⟨(Session.execute fuel number s).2, .answer outcome, waiting⟩)
      (Session.execute fuel number s).1

theorem perform_agrees {fuel : Nat} (hx : ExecuteAgrees fuel) (p : HostProgram) (s : Session)
    (waiting : List Waiting) :
    Agrees ⟨s, .perform p, waiting⟩ fuel
      (fun outcome =>
        ⟨(p.perform (Session.execute fuel) s).2, .perform (.ofOutcome outcome), waiting⟩)
      (p.perform (Session.execute fuel) s).1 := by
  induction p generalizing s with
  | done => exact ⟨0, rfl⟩
  | fail e => exact ⟨0, rfl⟩
  | inspect k ih => exact ((ih _ _ _).step rfl).weaken (Nat.le_succ fuel)
  | write address words k ih => exact ((ih _ _).step rfl).weaken (Nat.le_succ fuel)
  | makeString bytes k ih => exact ((ih _ _).step rfl).weaken (Nat.le_succ fuel)
  | clearStrings k ih => exact ((ih _).step rfl).weaken (Nat.le_succ fuel)
  | setArgc argc k ih => exact ((ih _).step rfl).weaken (Nat.le_succ fuel)
  | setTracing on k ih => exact ((ih _).step rfl).weaken (Nat.le_succ fuel)
  | emit line k ih => exact ((ih _).step rfl).weaken (Nat.le_succ fuel)
  | reload image k ih =>
    simp only [HostProgram.perform]
    cases hr : s.machine.reload image with
    | ok machine =>
      refine ((ih (.ok ()) { s with machine }).step ?_).weaken (Nat.le_succ fuel)
      simp only [next, perform, hr]
    | error e =>
      refine ((ih (.error e) s).step ?_).weaken (Nat.le_succ fuel)
      simp only [next, perform, hr]
  | register number name body k _ ih => exact ((ih _).step rfl).weaken (Nat.le_succ fuel)
  | execute function k ih =>
    have executed := hx function s (.program k :: waiting)
    simp only [HostProgram.perform]
    cases hr : Session.execute fuel function s with
    | mk ending s' =>
      rw [hr] at executed
      cases ending with
      | finished =>
        obtain ⟨n, hn⟩ := executed
        have resumed := (ih (.ok ()) s').step (c := ⟨s', .answer (.ok ()), .program k :: waiting⟩) rfl
        exact ((resumed.steps hn).step rfl).weaken (by omega)
      | failed e =>
        obtain ⟨n, hn⟩ := executed
        have told : (⟨s', .answer (.error e), .program k :: waiting⟩ : Configuration).next =
            some ⟨s', .perform (resume k (.error e)), waiting⟩ := rfl
        dsimp only
        by_cases fatal : e.kind.isFatal
        · rw [resume, if_pos fatal] at told
          simp only [if_pos fatal]
          have ended : Agrees ⟨s', .perform (.fail e.kind), waiting⟩ fuel
              (fun outcome => ⟨s', .perform (.ofOutcome outcome), waiting⟩) (.failed e.kind) :=
            ⟨0, rfl⟩
          exact (((ended.step told).steps hn).step rfl).weaken (by omega)
        · rw [resume, if_neg fatal] at told
          simp only [if_neg fatal]
          exact ((((ih (.error e) s').step told).steps hn).step rfl).weaken (by omega)
      | exhausted =>
        have asked : (⟨s, .perform (.execute function k), waiting⟩ : Configuration).next =
            some ⟨s, .execute function, .program k :: waiting⟩ := rfl
        exact after_isSome_of_le
          ((congrArg Option.isSome (after_of_next asked fuel)).trans executed) (Nat.le_succ fuel)

/-- What a bound on the work gives of a run agrees with the steps of it. -/
def InterpretAgrees (fuel : Nat) : Prop :=
  ∀ (frame : RunFrame) (executed : Nat) (next : Int) (s : Session) (waiting : List Waiting),
    Agrees ⟨s, .fetch frame executed next, waiting⟩ fuel
      (fun outcome => ⟨(interpret fuel frame executed next s).2,
        .unwind frame.program frame.exitDepth outcome, waiting⟩)
      (interpret fuel frame executed next s).1

theorem interpret_agrees {fuel : Nat} (hx : ExecuteAgrees fuel) (hi : InterpretAgrees fuel) :
    InterpretAgrees (fuel + 1) := by
  intro frame executed next ⟨v, builtins⟩ waiting
  simp only [interpret]
  cases ht : v.turn frame executed next with
  | mk turn u =>
    cases turn with
    | go next' => exact (hi frame (executed + 1) next' ⟨u, builtins⟩ waiting).step (by
        simp only [Configuration.next, fetch, ht])
    | returned =>
      exact ⟨1, by simp only [after, Option.bind_some, Configuration.next, fetch, ht]⟩
    | fault kind =>
      exact ⟨1, by simp only [after, Option.bind_some, Configuration.next, fetch, ht]; rfl⟩
    | builtin n next' =>
      dsimp only [callBuiltin]
      cases hb : (⟨u, builtins⟩ : Session).builtin? n.toNat with
      | none =>
        exact ⟨1, by simp only [after, Option.bind_some, Configuration.next, fetch, ht, hb]; rfl⟩
      | some body =>
        have called : (⟨⟨v, builtins⟩, .fetch frame executed next, waiting⟩ : Configuration).next =
            some ⟨⟨u, builtins⟩, .perform body, .run frame (executed + 1) next' :: waiting⟩ := by
          simp only [Configuration.next, fetch, ht, hb]
        have performed := perform_agrees hx body ⟨u, builtins⟩
          (.run frame (executed + 1) next' :: waiting)
        dsimp only
        cases hr : body.perform (Session.execute fuel) ⟨u, builtins⟩ with
        | mk ending s' =>
          rw [hr] at performed
          cases ending with
          | finished =>
            obtain ⟨n, hn⟩ := performed
            have resumed := (hi frame (executed + 1) next' s' waiting).step (c :=
              ⟨s', .perform .done, .run frame (executed + 1) next' :: waiting⟩) rfl
            exact ((resumed.steps hn).step called).weaken (by omega)
          | failed e =>
            obtain ⟨n, hn⟩ := performed
            refine ⟨n + 1 + 1, ?_⟩
            rw [after_of_next called, after_succ, hn]
            rfl
          | exhausted => exact (congrArg Option.isSome (after_of_next called fuel)).trans performed

theorem unwind_reaches (m : Module) (exitDepth : Nat) (outcome : Except RuntimeFault Unit)
    (s : Session) (waiting : List Waiting) :
    ∃ n, after n ⟨s, .unwind m exitDepth outcome, waiting⟩ =
      some ⟨(s.onMachine fun v => v.unwind m exitDepth).onMachine Machine.endRun, .answer outcome,
        waiting⟩ := by
  induction hd : s.machine.depth - exitDepth generalizing s with
  | zero =>
    have reached : ¬ exitDepth < s.machine.depth := Nat.not_lt.mpr (Nat.le_of_sub_eq_zero hd)
    refine ⟨1, ?_⟩
    simp only [after, Option.bind_some, next, unwind, if_neg reached, settle, Session.onMachine,
      Machine.unwind_of_le (Nat.not_lt.mp reached)]
  | succ k ih =>
    have deeper : exitDepth < s.machine.depth := by omega
    have lower := Machine.leave_depth s.machine m
    have left : (⟨s, .unwind m exitDepth outcome, waiting⟩ : Configuration).next =
        some ⟨s.onMachine fun v => (v.leave m).2, .unwind m exitDepth outcome, waiting⟩ := by
      simp only [next, unwind, if_pos deeper]
    obtain ⟨n, hn⟩ := ih (s.onMachine fun v => (v.leave m).2) (by
      simp only [Session.onMachine]
      omega)
    refine ⟨n + 1, ?_⟩
    rw [after_of_next left, hn]
    simp only [Session.onMachine, Machine.unwind_of_lt deeper]

theorem execute_agrees {fuel : Nat} (hx : ExecuteAgrees fuel) (hi : InterpretAgrees fuel) :
    ExecuteAgrees (fuel + 1) := by
  intro number s waiting
  simp only [Session.execute]
  cases hc : s.machine.program.executable number with
  | error e => exact ⟨1, by simp only [after, Option.bind_some, next, execute, hc]; rfl⟩
  | ok callee =>
    cases callee with
    | builtin n =>
      dsimp only [callBuiltin]
      cases hb : (s.onMachine Machine.beginRun).builtin? n.toNat with
      | none => exact ⟨1, by simp only [after, Option.bind_some, next, execute, hc, hb]; rfl⟩
      | some body =>
        have called : (⟨s, .execute number, waiting⟩ : Configuration).next =
            some ⟨s.onMachine Machine.beginRun, .perform body,
              .execution s.machine.program :: waiting⟩ := by
          simp only [next, execute, hc, hb]
        have performed := perform_agrees hx body (s.onMachine Machine.beginRun)
          (.execution s.machine.program :: waiting)
        dsimp only
        cases hr : body.perform (Session.execute fuel) (s.onMachine Machine.beginRun) with
        | mk ending s' =>
          rw [hr] at performed
          cases ending with
          | finished =>
            obtain ⟨n, hn⟩ := performed
            refine ⟨n + 1 + 1, ?_⟩
            rw [after_of_next called, after_succ, hn]
            rfl
          | failed e =>
            obtain ⟨n, hn⟩ := performed
            refine ⟨n + 1 + 1, ?_⟩
            rw [after_of_next called, after_succ, hn]
            rfl
          | exhausted => exact (congrArg Option.isSome (after_of_next called fuel)).trans performed
    | bytecode =>
      dsimp only
      cases he : (s.onMachine Machine.beginRun).machine.enter s.machine.program number with
      | mk result u =>
        cases result with
        | error e =>
          have entered : (⟨s, .execute number, waiting⟩ : Configuration).next =
              some (crash s.machine.program (s.onMachine Machine.beginRun).machine.depth e
                ⟨u, s.builtins⟩ waiting) := by
            simp only [next, execute, hc, he]; rfl
          obtain ⟨n, hn⟩ := unwind_reaches s.machine.program
            (s.onMachine Machine.beginRun).machine.depth (.error (u.fault s.machine.program e))
            ⟨u, s.builtins⟩ waiting
          exact ⟨n + 1, (after_of_next entered n).trans hn⟩
        | ok first =>
          have entered : (⟨s, .execute number, waiting⟩ : Configuration).next =
              some ⟨⟨u, s.builtins⟩, .fetch (.opening s.machine.program
                (s.onMachine Machine.beginRun).machine.depth u.settings) 0 first, waiting⟩ := by
            simp only [next, execute, hc, he]; rfl
          have ran := (hi (.opening s.machine.program
            (s.onMachine Machine.beginRun).machine.depth u.settings) 0 first ⟨u, s.builtins⟩
            waiting).step entered
          exact ran.onwards fun outcome => unwind_reaches ..

/-- Executing with a bound on the work agrees with the steps. -/
theorem executeAgrees (fuel : Nat) : ExecuteAgrees fuel := by
  suffices both : ExecuteAgrees fuel ∧ InterpretAgrees fuel from both.1
  induction fuel with
  | zero => exact ⟨fun _ _ _ => rfl, fun _ _ _ _ _ => rfl⟩
  | succ fuel ih => exact ⟨execute_agrees ih.1 ih.2, interpret_agrees ih.1 ih.2⟩

theorem after_final {c d e : Configuration} {m n : Nat} (hm : after m c = some d)
    (hd : d.next = none) (hn : after n c = some e) (he : e.next = none) : d = e := by
  have stuck {k : Nat} {f : Configuration} (hf : f.next = none) (hk : 0 < k) : after k f = none := by
    obtain ⟨j, rfl⟩ := Nat.exists_eq_add_one_of_ne_zero (Nat.ne_of_gt hk)
    rw [Nat.add_comm, after_add, after_succ, after_zero, Option.bind_some, hf]
    rfl
  rcases Nat.lt_trichotomy m n with hlt | rfl | hlt
  · obtain ⟨k, rfl⟩ := Nat.exists_eq_add_of_le (Nat.le_of_lt hlt)
    rw [after_add, hm, Option.bind_some, stuck hd (by omega)] at hn
    cases hn
  · exact Option.some.inj (hm.symm.trans hn)
  · obtain ⟨k, rfl⟩ := Nat.exists_eq_add_of_le (Nat.le_of_lt hlt)
    rw [after_add, hn, Option.bind_some, stuck he (by omega)] at hm
    cases hm

/-- An execution has an outcome, with some bound on its work, if and only if the steps from its
start come to that outcome. -/
theorem execute_iff_steps (number : Nat) (s s' : Session) (outcome : Except RuntimeFault Unit) :
    (∃ fuel, Session.execute fuel number s = (.ofOutcome outcome, s')) ↔
      ∃ n, after n (start number s) = some ⟨s', .answer outcome, []⟩ := by
  constructor
  · rintro ⟨fuel, hr⟩
    have agrees := executeAgrees fuel number s []
    rw [hr] at agrees
    cases outcome <;> exact agrees
  · rintro ⟨n, hn⟩
    have agrees := executeAgrees (n + 1) number s []
    refine ⟨n + 1, ?_⟩
    cases hr : Session.execute (n + 1) number s with
    | mk ending s'' =>
      rw [hr] at agrees
      have same {outcome' : Except RuntimeFault Unit}
          (h : ∃ k, after k (start number s) = some ⟨s'', .answer outcome', []⟩) :
          (s'' = s' ∧ outcome' = outcome) := by
        obtain ⟨k, hk⟩ := h
        have one := after_final hk rfl hn rfl
        simp only [mk.injEq, Task.answer.injEq, and_true] at one
        exact one
      cases ending with
      | finished =>
        obtain ⟨rfl, rfl⟩ := same agrees
        rfl
      | failed e =>
        obtain ⟨rfl, rfl⟩ := same agrees
        rfl
      | exhausted =>
        have longer : (after (n + 1) (start number s)).isSome := agrees
        rw [after_succ, hn] at longer
        cases longer

end Configuration
end GameBytecode
