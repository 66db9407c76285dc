import GameBytecode.Proofs.RefusedStatement
import GameBytecode.Proofs.StatementLimit

/-!
Values in place of faults for division by zero. With them no statement fails for a quotient, and an
execution that does not fail for one without them is not changed by them. Remainders by zero fail
either way.
-/
namespace GameBytecode

def Settings.substituting (settings : Settings) : Settings := { settings with faultChecks := true }

/-- The fault of a quotient by zero, of whichever kind. -/
def Fault.OfQuotient : Fault → Prop
  | .divisionByZero mnemonic => ∃ kind, mnemonic = (Opcode.arithmetic kind .div).mnemonic
  | _ => False

theorem Fault.OfCall.not_quotient {e : Fault} (h : e.OfCall) : ¬ e.OfQuotient := by
  cases e <;> first | exact h.elim | exact id

theorem Fault.OfLeaving.not_quotient {e : Fault} (h : e.OfLeaving) : ¬ e.OfQuotient := by
  cases e <;> first | exact h.elim | exact id

theorem Module.Misplaced.not_quotient {m : Module} {number : Nat} {e : Fault}
    (h : m.Misplaced number e) : ¬ e.OfQuotient := by
  obtain ⟨f, -, -, rfl⟩ := h
  exact id

namespace Arithmetic

theorem op_of_quotient {kind : Numeric} {op : Arithmetic} (h : (byZero kind op).OfQuotient) :
    op = .div := by
  obtain ⟨kind', same⟩ := h
  cases op <;> cases kind <;> cases kind' <;> first | rfl | exact absurd same (by decide)

theorem eval_quotient (kind : Numeric) (a b : Word) : ∃ w, eval true kind .div a b = .ok w := by
  cases kind with
  | float =>
    simp only [eval, onFloats]
    split <;> exact ⟨_, rfl⟩
  | integer =>
    simp only [eval, onIntegers]
    split <;> exact ⟨_, rfl⟩
  | unsigned =>
    simp only [eval, onUnsigned]
    split <;> exact ⟨_, rfl⟩

theorem eval_substitute {kind : Numeric} {op : Arithmetic} {a b : Word} {e : Fault}
    (h : op.eval true kind a b = .error e) : ¬ e.OfQuotient := by
  intro quotient
  rw [eval_error h] at quotient
  cases op_of_quotient quotient
  obtain ⟨w, hw⟩ := eval_quotient kind a b
  cases h.symm.trans hw

/-- An operation fails for a quotient, or it is the same with values for division by zero. -/
theorem eval_cases (substitute : Bool) (kind : Numeric) (op : Arithmetic) (a b : Word) :
    (∃ e, op.eval substitute kind a b = .error e ∧ e.OfQuotient) ∨
      op.eval true kind a b = op.eval substitute kind a b := by
  cases op with
  | div =>
    cases h : eval substitute kind .div a b with
    | error e =>
      rw [eval_error h]
      exact .inl ⟨_, rfl, kind, rfl⟩
    | ok w =>
      right
      rw [← h]
      cases substitute with
      | true => rfl
      | false =>
        cases kind with
        | float =>
          simp only [eval, onFloats] at h ⊢
          split at h
          · rename_i divisible
            simp only [if_pos divisible]
          · cases h
        | integer =>
          simp only [eval, onIntegers] at h ⊢
          split at h
          · rename_i divisible
            simp only [if_pos divisible]
          · cases h
        | unsigned =>
          simp only [eval, onUnsigned] at h ⊢
          split at h
          · rename_i divisible
            simp only [if_pos divisible]
          · cases h
  | _ => cases kind <;> exact .inr rfl

end Arithmetic

section statement
variable (settings : Settings) (m : Module) (index : Nat) (s : Statement) (st : Store)

namespace Step

theorem run_arithmetic (kind : Numeric) (op : Arithmetic) :
    (effect settings m index s (.arithmetic kind op)).run s st =
      st.after (st.memory.read s.a.toNat) fun x =>
        st.after (st.memory.read s.b.toNat) fun y =>
          st.after (op.eval settings.faultChecks kind x y) fun w =>
            (Plan.write .c [w] (.done Control.next)).run s st := by
  simp only [effect, Plan.run_word_bind]
  congr 1
  funext x
  congr 1
  funext y
  cases op.eval settings.faultChecks kind x y <;> rfl

/-- Only arithmetic looks at whether division by zero has a value. -/
theorem effect_substituting {op : Opcode} (other : ∀ kind f, op ≠ .arithmetic kind f) :
    effect settings.substituting m index s op = effect settings m index s op := by
  cases op with
  | arithmetic kind f => exact absurd rfl (other kind f)
  | complement kind => cases kind <;> rfl
  | compare kind f => cases kind <;> rfl
  | same kind equal => cases kind <;> rfl
  | isEmpty kind => cases kind <;> rfl
  | _ => rfl

end Step

/-- A statement fails for a quotient, or it does the same with values for division by zero. -/
theorem step_substituting :
    (∃ e, (step settings m index s st).1 = .error e ∧ e.OfQuotient) ∨
      step settings.substituting m index s st = step settings m index s st := by
  unfold step
  cases Opcode.ofCode? s.op with
  | none => exact .inr rfl
  | some op =>
    dsimp only
    by_cases arithmetic : ∃ kind f, op = .arithmetic kind f
    · obtain ⟨kind, f, rfl⟩ := arithmetic
      simp only [Step.run_arithmetic]
      cases st.memory.read s.a.toNat with
      | error e => exact .inr rfl
      | ok x =>
        cases st.memory.read s.b.toNat with
        | error e => exact .inr rfl
        | ok y =>
          simp only [Store.after]
          rcases f.eval_cases settings.faultChecks kind x y with ⟨e, he, quotient⟩ | same
          · left
            rw [he]
            exact ⟨e, rfl, quotient⟩
          · right
            rw [show settings.substituting.faultChecks = true from rfl, same]
    · rw [Step.effect_substituting settings m index s fun kind f h => arithmetic ⟨kind, f, h⟩]
      exact .inr rfl

variable {settings m index s st}

theorem step_not_quotient (on : settings.faultChecks = true) {e : Fault}
    (h : (step settings m index s st).1 = .error e) : ¬ e.OfQuotient := by
  cases ho : Opcode.ofCode? s.op with
  | none =>
    unfold step at h
    rw [ho] at h
    cases h
    exact id
  | some op =>
    intro quotient
    have raises := (step_sends settings m index st ho).2 e h
    obtain ⟨kind, f, rfl⟩ : ∃ kind f, op = .arithmetic kind f := by
      cases e with
      | divisionByZero mnemonic => exact raises.divides mnemonic rfl
      | _ => exact quotient.elim
    have ends : (Step.effect settings m index s (.arithmetic kind f)).Ends (¬ ·.OfQuotient)
        fun _ => True := by
      simp only [Step.effect, Plan.word, Plan.read_bind, Plan.done_bind, Plan.lift_eq, Plan.Ends, on]
      intro x y
      exact .bind (.ofExcept fun e he => Arithmetic.eval_substitute he) fun w _ => trivial
    unfold step at h
    rw [ho] at h
    exact (Plan.run_ends (fun _ => id) (fun _ => id) s st ends).2 e h quotient

end statement

theorem Machine.FaultsWith.not_quotient {v : Machine} {frame : RunFrame} {executed : Nat} {next : Int}
    {e : Fault} (on : v.settings.faultChecks = true) (h : v.FaultsWith frame executed next e) :
    ¬ e.OfQuotient := by
  cases h with
  | limit reached => exact id
  | outside h => exact id
  | effect fetched h => exact step_not_quotient on h
  | call h => exact h.not_quotient
  | misplaced fetched called bytecode h => exact h.not_quotient
  | returning address => exact id
  | leaving u size control h => exact (leave_origin h).not_quotient

namespace Configuration
variable {s : Session} {number : Nat}

/-- With values for division by zero, only a builtin reports a quotient. -/
theorem quotient_failing (on : s.machine.settings.faultChecks = true) {fuel : Nat} {e : Fault}
    (h : (Session.execute fuel number s).1.fault? = some e) (quotient : e.OfQuotient) :
    Failing e number s := by
  obtain ⟨f, ran, rfl⟩ := Ending.failed_of_fault? h
  obtain ⟨n, hn⟩ := (execute_iff_steps number s (Session.execute fuel number s).2 (.error f)).mp
    ⟨fuel, Prod.ext ran rfl⟩
  obtain ⟨k, -, d, hd, raised⟩ := fault_raised hn rfl
  have settings : d.machine.settings = s.machine.settings :=
    after_invariant (P := fun c => c.machine.settings = s.machine.settings) rfl
      (fun _ _ same hn => (next_settings hn).trans same) hd
  cases raised with
  | builtin task => exact ⟨k, d, hd, task⟩
  | executing task origin =>
    rcases origin with origin | ⟨-, origin⟩
    · exact absurd quotient origin.not_quotient
    · exact absurd quotient origin.not_quotient
  | fetching task origin =>
    rw [← settings] at on
    exact absurd quotient (origin.not_quotient on)

end Configuration

namespace Session

/-- Values for division by zero change nothing but that. With them an execution fails for a quotient
only if a builtin does; and one that does not fail for a quotient without them ends in the same way
with them, with the same machine but for that setting. -/
theorem substitution_conservative {s : Session} (hs : s.Overlooks Settings.substituting)
    (number fuel : Nat) :
    (∀ e, (execute fuel number (s.under Settings.substituting)).1.fault? = some e → e.OfQuotient →
      Configuration.Failing e number (s.under Settings.substituting)) ∧
    ((execute fuel number s).1.StoppedBy Fault.OfQuotient ∨
      execute fuel number (s.under Settings.substituting) =
        ((execute fuel number s).1, (execute fuel number s).2.under Settings.substituting)) := by
  have same (settings : Settings) :
      settings.substituting.deadbeefLocals = settings.deadbeefLocals := rfl
  have turns (m : Module) (exitDepth : Nat) :
      (RunFrame.opening m exitDepth s.machine.settings).Follows Settings.substituting
        Fault.OfQuotient (.opening m exitDepth s.machine.settings.substituting) :=
    fun executed next v => v.turn_under same
      (fun m index st => step_substituting v.settings m index st) _ executed next
  exact ⟨fun e => Configuration.quotient_failing rfl, execute_under same turns
    (hs.ignores fun v => v.reload_under (fun _ => rfl) (fun _ => rfl) fun _ => rfl) fuel number⟩

/-- A module whose first function divides one float by another, calls a builtin and takes a remainder by
zero. Its second function divides by zero; its other functions are builtins. -/
def dividingImage : Text.Bytes :=
  { Builder.empty with
    statements := #[.null,
      ⟨(Opcode.arithmetic .float .div).code, 28, 29, 30⟩, bareCall 31,
      ⟨(Opcode.arithmetic .integer .mod).code, 28, 32, 30⟩, ⟨Opcode.done.code, 30, 0, 0⟩,
      ⟨(Opcode.arithmetic .integer .div).code, 28, 32, 30⟩, ⟨Opcode.done.code, 30, 0, 0⟩]
    functions := #[.null,
      { FunctionRecord.null with entry := 1 }, { FunctionRecord.null with entry := 5 },
      { FunctionRecord.null with entry := -1 }, { FunctionRecord.null with entry := -2 }]
    globals := Builder.empty.globals ++ #[0x40c00000, 0x40000000, 0, 3, 0] : Builder }.bytes

theorem dividingImage_loads : (Machine.load dividingImage 0 0 {}).toOption.isSome := by
  decide +kernel

def dividing : Session :=
  ⟨(Machine.load dividingImage 0 0 {}).toOption.get dividingImage_loads,
    [⟨1, "name", .inspect fun v _ => .makeString [UInt8.ofNat v.depth] fun _ => .done⟩,
      ⟨2, "fail", .fail (Arithmetic.byZero .float .div)⟩]⟩

theorem dividing_overlooks : dividing.Overlooks Settings.substituting := by
  intro b hb
  rcases List.mem_cons.mp hb with rfl | hb
  · exact fun v roster => ⟨rfl, fun r => trivial⟩
  · rw [List.mem_singleton.mp hb]
    trivial

theorem dividing_remainder :
    (execute 9 1 dividing).1.fault? = some (Arithmetic.byZero .integer .mod) := by decide +kernel

theorem dividing_quotient :
    (execute 9 2 dividing).1.fault? = some (Arithmetic.byZero .integer .div) ∧
      (execute 9 2 (dividing.under Settings.substituting)).1 = .finished := by decide +kernel

theorem dividing_fails :
    (execute 9 4 (dividing.under Settings.substituting)).1.fault? =
      some (Arithmetic.byZero .float .div) := by decide +kernel

/-- The first function ends with the same remainder by zero either way. The second one fails for its
quotient only without values for division by zero, and where a quotient is reported with them a builtin
has failed. -/
theorem dividing_conservative :
    dividing.Overlooks Settings.substituting ∧
      (execute 9 1 dividing).1.fault? = some (Arithmetic.byZero .integer .mod) ∧
      execute 9 1 (dividing.under Settings.substituting) =
        ((execute 9 1 dividing).1, (execute 9 1 dividing).2.under Settings.substituting) ∧
      (execute 9 2 dividing).1.fault? = some (Arithmetic.byZero .integer .div) ∧
      (execute 9 2 (dividing.under Settings.substituting)).1 = .finished ∧
      Configuration.Failing (Arithmetic.byZero .float .div) 4
        (dividing.under Settings.substituting) := by
  refine ⟨dividing_overlooks, dividing_remainder, ?_, dividing_quotient.1, dividing_quotient.2, ?_⟩
  · apply (substitution_conservative dividing_overlooks 1 9).2.resolve_left
    rw [Ending.stoppedBy_iff, dividing_remainder]
    rintro ⟨e, reported, quotient⟩
    cases reported
    cases Arithmetic.op_of_quotient quotient
  · exact (substitution_conservative dividing_overlooks 4 9).1 _ dividing_fails ⟨.float, rfl⟩

end Session
end GameBytecode
