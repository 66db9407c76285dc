import GameBytecode.Proofs.StoreShape

/-!
How a statement ends: the faults it can raise by itself, and where control goes from it. Only calls
call and only returns return, and neither changes the store by itself.
-/
namespace GameBytecode

/-- Whether a statement can raise the fault before control goes on from it. -/
def Fault.OfStatement : Fault → Prop
  | .unknownOpcode _ | .invalidEntityAccess _ | .invalidFieldAccess _ | .worldAssignment
  | .invalidJump _ | .invalidGlobal _ | .invalidString _ | .divisionByZero _
  | .missingBinding _ | .overflow _ => True
  | _ => False

/-- Whether the effect of an opcode can raise the fault. -/
def Fault.OfEffect : Fault → Prop
  | .invalidEntityAccess _ | .invalidFieldAccess _ | .worldAssignment | .invalidJump _
  | .invalidGlobal _ | .invalidString _ | .divisionByZero _ | .missingBinding _
  | .overflow _ => True
  | _ => False

def Opcode.Jumps : Opcode → Prop
  | branch _ | goto | jump | jumpTable => True
  | _ => False

/-- Whether the effect of this opcode can raise the fault: only what jumps can jump too far, and only
arithmetic can divide by zero. -/
structure Opcode.Raises (op : Opcode) (e : Fault) : Prop where
  effect : e.OfEffect
  jumps : ∀ target, e = .invalidJump target → op.Jumps
  divides : ∀ mnemonic, e = .divisionByZero mnemonic → ∃ kind f, op = .arithmetic kind f

theorem Opcode.Raises.invalidGlobal (op : Opcode) (address : Int) :
    op.Raises (.invalidGlobal address) :=
  ⟨trivial, fun _ h => Fault.noConfusion h, fun _ h => Fault.noConfusion h⟩

theorem Opcode.Raises.invalidString (op : Opcode) (i : Int) : op.Raises (.invalidString i) :=
  ⟨trivial, fun _ h => Fault.noConfusion h, fun _ h => Fault.noConfusion h⟩

theorem Fault.OfEffect.ofStatement {e : Fault} (h : e.OfEffect) : e.OfStatement := by
  cases e <;> first | exact h.elim | trivial

/-- Control that stays in the function. -/
def Control.Local : Control → Prop
  | .next | .jump _ => True
  | .call .. | .ret _ => False

/-- Where an opcode can send control. -/
def Opcode.Leads (s : Statement) : Opcode → Control → Prop
  | done, control | ret, control => control = .ret s.a
  | call argc, control => ∃ function, control = .call function argc
  | _, control => control.Local

/-- Where an opcode of the statement at an index sends control, but for what it finds in memory. -/
def Opcode.Sends (index : Nat) (s : Statement) : Opcode → Control → Prop
  | done, control | ret, control => control = .ret s.a
  | call argc, control => ∃ function, control = .call function argc
  | branch _, control => control = .next ∨ control = .jump (index + signedOperand s.b)
  | goto, control => control = .jump (index + signedOperand s.a)
  | jump, control | jumpTable, control => ∃ target, control = .jump target
  | _, control => control = .next

theorem Opcode.Sends.leads {index : Nat} {s : Statement} {op : Opcode} {control : Control}
    (h : op.Sends index s control) : op.Leads s control := by
  cases op with
  | done => exact h
  | ret => exact h
  | call argc => exact h
  | branch condition =>
    rcases h with rfl | rfl <;> trivial
  | jump =>
    obtain ⟨target, rfl⟩ := h
    trivial
  | jumpTable =>
    obtain ⟨target, rfl⟩ := h
    trivial
  | _ =>
    subst h
    trivial

namespace Plan
variable {α β : Type} {P : Fault → Prop} {Q : α → Prop} {R : β → Prop}

/-- Every fault that the plan raises of its own, and every one of the strings it looks at, has a
property, and so has every answer. -/
def Ends (P : Fault → Prop) (Q : α → Prop) : Plan α → Prop
  | done a => Q a
  | fail e => P e
  | read _ _ k => ∀ ws, (k ws).Ends P Q
  | write _ _ k => k.Ends P Q
  | observe f k => (∀ a e, f a = .error e → P e) ∧ ∀ answer, (k answer).Ends P Q
  | concat _ _ k => ∀ joined, (k joined).Ends P Q

theorem Ends.bind {p : Plan α} {f : α → Plan β} (hp : p.Ends P Q)
    (hf : ∀ a, Q a → (f a).Ends P R) : (p >>= f).Ends P R := by
  induction p with
  | done a => exact hf a hp
  | fail e => exact hp
  | read place count k ih => exact fun ws => ih ws (hp ws)
  | write place words k ih => exact ih hp
  | observe g k ih => exact ⟨hp.1, fun answer => ih answer (hp.2 answer)⟩
  | concat r s k ih => exact fun joined => ih joined (hp joined)

theorem Ends.ofExcept {x : Except Fault α} (h : ∀ e, x = .error e → P e) :
    (Plan.ofExcept x).Ends P fun _ => True := by
  cases x with
  | ok a => trivial
  | error e => exact h e rfl

theorem Ends.bind_ok {x : Except Fault α} {f : α → Plan β} (hx : ∃ a, x = .ok a)
    (hf : ∀ a, (f a).Ends P R) : (Plan.ofExcept x >>= f).Ends P R := by
  obtain ⟨a, rfl⟩ := hx
  exact hf a

end Plan

theorem Memory.resolve_error {m : Memory} {address : Int} {count : Nat} {e : Fault}
    (h : m.resolve address count = .error e) : e = .invalidGlobal address := by
  simp only [resolve] at h
  split at h
  · exact (Except.error.inj h).symm
  · cases h

theorem Memory.slice_error {m : Memory} {address : Int} {count : Nat} {e : Fault}
    (h : m.slice address count = .error e) : e = .invalidGlobal address := by
  simp only [slice] at h
  cases hr : m.resolve address count with
  | ok i => rw [hr] at h; cases h
  | error e' =>
    rw [hr] at h
    cases h
    exact resolve_error hr

namespace Action

theorem put_error {address : Int} {ws : List Word} {st : Store} {e : Fault}
    (h : (put address ws st).1 = .error e) : e = .invalidGlobal address := by
  simp only [put] at h
  split at h
  · rename_i e' hr
    cases h
    exact Memory.resolve_error hr
  · cases h

theorem copy_error {source target : Int} {count : Nat} {st : Store} {e : Fault}
    (h : (copy source target count st).1 = .error e) : ∃ address, e = .invalidGlobal address := by
  change (ExceptT.bindCont (put target) (st.memory.slice source count) st).1 = .error e at h
  cases hs : st.memory.slice source count with
  | error e' =>
    rw [hs] at h
    cases h
    exact ⟨source, Memory.slice_error hs⟩
  | ok ws =>
    rw [hs] at h
    exact ⟨target, put_error h⟩

end Action

namespace StringArena

theorem get_error {a : StringArena} {r : StringRef} {e : Fault} (h : a.get r = .error e) :
    e = .invalidString r.toInt := by
  simp only [get] at h
  split at h
  · cases h
  · exact (Except.error.inj h).symm

theorem concat_error {a : StringArena} {r s : StringRef} {e : Fault}
    (h : a.concat r s = .error e) : ∃ i, e = .invalidString i := by
  unfold concat at h
  split at h
  · rename_i e' hr
    cases h
    exact ⟨_, get_error hr⟩
  · rename_i x e' hr hs
    cases h
    exact ⟨_, get_error hs⟩
  · cases h

theorem compare_error {a : StringArena} {r s : StringRef} {e : Fault}
    (h : a.compare r s = .error e) : ∃ i, e = .invalidString i := by
  unfold compare at h
  split at h
  · rename_i e' hr
    cases h
    exact ⟨_, get_error hr⟩
  · rename_i x e' hr hs
    cases h
    exact ⟨_, get_error hs⟩
  · cases h

theorem isEmpty_error {a : StringArena} {r : StringRef} {e : Fault}
    (h : a.isEmpty r = .error e) : ∃ i, e = .invalidString i := by
  unfold isEmpty at h
  split at h
  · cases h
  · cases hr : a.get r with
    | ok x => rw [hr] at h; cases h
    | error e' =>
      rw [hr] at h
      cases h
      exact ⟨_, get_error hr⟩

end StringArena

private theorem ends_of_error {α : Type} {P : Fault → Prop} {Q : α → Prop} {e : Fault} (h : P e) :
    (∀ a, (Except.error e : Except Fault α) = .ok a → Q a) ∧
      ∀ e', (Except.error e : Except Fault α) = .error e' → P e' := by
  constructor
  · intro a ha
    cases ha
  · intro e' he
    cases he
    exact h

/-- A plan ends as it says, or it is refused words of memory or a string. -/
theorem Plan.run_ends {α : Type} {P : Fault → Prop} {Q : α → Prop}
    (memory : ∀ address, P (.invalidGlobal address)) (string : ∀ i, P (.invalidString i))
    (s : Statement) {p : Plan α} (st : Store) (hp : p.Ends P Q) :
    (∀ a, (p.run s st).1 = .ok a → Q a) ∧ ∀ e, (p.run s st).1 = .error e → P e := by
  induction p generalizing st with
  | done a =>
    constructor
    · intro b hb
      cases hb
      exact hp
    · intro e he
      cases he
  | fail e => exact ends_of_error hp
  | read place count k ih =>
    unfold run
    split
    · rename_i e hs
      rw [Memory.slice_error hs]
      exact ends_of_error (memory _)
    · exact ih _ _ (hp _)
  | write place words k ih =>
    obtain ⟨words', strings⟩ := st
    unfold run
    split
    · rename_i e hr
      rw [Memory.resolve_error hr]
      exact ends_of_error (memory _)
    · exact ih _ hp
  | observe f k ih =>
    unfold run
    split
    · rename_i e hf
      exact ends_of_error (hp.1 _ _ hf)
    · exact ih _ _ (hp.2 _)
  | concat r t k ih =>
    obtain ⟨words, strings⟩ := st
    unfold run
    split
    · rename_i e hc
      obtain ⟨i, rfl⟩ := StringArena.concat_error hc
      exact ends_of_error (string i)
    · exact ih _ _ (hp _)

namespace Arithmetic
variable {substitute : Bool} {op : Arithmetic} {e : Fault}

theorem onIntegers_error {a b : Int32} (h : onIntegers substitute op a b = .error e) :
    e = byZero .integer op := by
  cases op with
  | div =>
    simp only [onIntegers] at h
    split at h
    · cases h
    · split at h
      · cases h
      · exact (Except.error.inj h).symm
  | mod =>
    simp only [onIntegers] at h
    split at h
    · exact (Except.error.inj h).symm
    · cases h
  | _ => cases h

theorem onUnsigned_error {a b : Word} (h : onUnsigned substitute op a b = .error e) :
    e = byZero .unsigned op := by
  cases op with
  | div =>
    simp only [onUnsigned] at h
    split at h
    · cases h
    · split at h
      · cases h
      · exact (Except.error.inj h).symm
  | mod =>
    simp only [onUnsigned] at h
    split at h
    · exact (Except.error.inj h).symm
    · cases h
  | _ => cases h

theorem onFloats_error {a b : Word} (h : onFloats substitute op a b = .error e) :
    e = byZero .float op := by
  cases op with
  | div =>
    simp only [onFloats] at h
    split at h
    · cases h
    · split at h
      · cases h
      · exact (Except.error.inj h).symm
  | mod =>
    simp only [onFloats] at h
    split at h
    · exact (Except.error.inj h).symm
    · cases h
  | _ => cases h

theorem eval_error {kind : Numeric} {a b : Word} (h : op.eval substitute kind a b = .error e) :
    e = byZero kind op := by
  cases kind with
  | float => exact onFloats_error h
  | unsigned => exact onUnsigned_error h
  | integer =>
    simp only [eval] at h
    cases hr : onIntegers substitute op a.toInt32 b.toInt32 with
    | ok i => rw [hr] at h; cases h
    | error e' =>
      rw [hr] at h
      cases h
      exact onIntegers_error hr

end Arithmetic

theorem Opcode.compute_raises {substitute : Bool} {kind : Numeric} {f : Arithmetic} {a b : Word}
    {e : Fault} (h : (arithmetic kind f).compute substitute kind a b = .error e) :
    (arithmetic kind f).Raises e := by
  rw [compute_arithmetic] at h
  rw [Arithmetic.eval_error h]
  exact ⟨trivial, fun _ h => Fault.noConfusion h, fun _ _ => ⟨kind, f, rfl⟩⟩

theorem Layout.checked_error {operation : String} {n : Int} {e : Fault}
    (h : checked operation n = .error e) : e = .overflow operation := by
  unfold checked at h
  split at h
  · cases h
  · exact (Except.error.inj h).symm

theorem Layout.fieldAddress_error {l : Layout} {entity field : Int} {e : Fault}
    (h : l.fieldAddress entity field = .error e) : ∃ operation, e = .overflow operation := by
  rcases error_of_bind h with multiplied | ⟨before, -, h⟩
  · exact ⟨_, checked_error multiplied⟩
  rcases error_of_bind h with added | ⟨record, -, h⟩
  · exact ⟨_, checked_error added⟩
  · exact ⟨_, checked_error h⟩

theorem entityAddress_error {l : Layout} {bounds : Bool} {entity field : Int} {width : Nat}
    {e : Fault} (h : entityAddress l bounds entity field width = .error e) (op : Opcode) :
    op.Raises e := by
  unfold entityAddress at h
  split at h
  · cases h
    exact ⟨trivial, fun _ h => Fault.noConfusion h, fun _ h => Fault.noConfusion h⟩
  · split at h
    · cases h
      exact ⟨trivial, fun _ h => Fault.noConfusion h, fun _ h => Fault.noConfusion h⟩
    · obtain ⟨operation, rfl⟩ := Layout.fieldAddress_error h
      exact ⟨trivial, fun _ h => Fault.noConfusion h, fun _ h => Fault.noConfusion h⟩

namespace Step
open Plan
variable {settings : Settings} {m : Module} {op : Opcode}

theorem jumpTo_ends {Q : Control → Prop} {target : Int} (jumps : op.Jumps) (h : Q (.jump target)) :
    (jumpTo settings m target).Ends op.Raises Q := by
  unfold jumpTo
  split
  · exact ⟨trivial, fun _ _ => jumps, fun _ h => Fault.noConfusion h⟩
  · exact h

theorem binding_ends (name : String) (address : Option Nat) :
    (binding name address).Ends op.Raises fun _ => True := by
  cases address with
  | none => exact ⟨trivial, fun _ h => Fault.noConfusion h, fun _ h => Fault.noConfusion h⟩
  | some a => trivial

theorem entityAddress_bind_ends {α : Type} {Q : α → Prop} (l : Layout) (bounds : Bool)
    (entity field : Int) (width : Nat) {f : Int → Plan α}
    (h : ∀ address, (f address).Ends op.Raises Q) :
    (Plan.ofExcept (entityAddress l bounds entity field width) >>= f).Ends op.Raises Q :=
  .bind (.ofExcept fun _ he => entityAddress_error he op) fun address _ => h address

/-- What statements compute and decide on two numbers is what the operations of that kind of number
answer. None of them finds an opcode unknown that is handed to it. -/
theorem effect_handled (settings : Settings) (m : Module) (index : Nat) (s : Statement) :
    (∀ kind op, effect settings m index s (.arithmetic kind op) = do
      let x ← word .a
      let y ← word .b
      putWord .c (← (Opcode.arithmetic kind op).compute settings.faultChecks kind x y)
      return .next) ∧
    (∀ kind op, effect settings m index s (.connective kind op) = do
      let x ← word .a
      let y ← word .b
      putFlag .c (← (Opcode.connective kind op).judge kind x y)
      return .next) ∧
    (∀ kind op number, (kind, number) ∈ [(.integer, .integer), (.pointer, .integer),
        (.unsigned, .unsigned)] → effect settings m index s (.compare kind op) = do
      let x ← word .a
      let y ← word .b
      putFlag .c (← (Opcode.compare kind op).judge number x y)
      return .next) ∧
    (∀ op, effect settings m index s (.compare .float op) = do
      let x ← word .a
      let y ← word .b
      let holds ← (Opcode.compare .float op).judge .float x y
      match op with
      | .eq | .ne => putFlag .c holds
      | _ => putWord .c (if holds then Single.one else 0)
      return .next) ∧
    ∀ kind op x y code, (Opcode.arithmetic kind op).compute settings.faultChecks kind x y ≠
      .error (.unknownOpcode code) := by
  refine ⟨fun kind op => ?_, fun kind op => ?_, fun kind op number h => ?_, fun op => rfl, ?_⟩
  · simp only [effect, Opcode.compute_arithmetic]
  · simp only [Opcode.judge_connective]
    rfl
  · simp only [List.mem_cons, Prod.mk.injEq, List.not_mem_nil, or_false] at h
    rcases h with ⟨rfl, rfl⟩ | ⟨rfl, rfl⟩ | ⟨rfl, rfl⟩ <;> rfl
  · intro kind op x y code h
    rw [Opcode.compute_arithmetic] at h
    cases Arithmetic.eval_error h

theorem compare_ends (settings : Settings) (m : Module) (index : Nat) (s : Statement)
    {kind : Ordered} (number : Numeric) (handed : (kind, number) ∈
      [(.integer, .integer), (.pointer, .integer), (.unsigned, .unsigned)]) (op : Comparison) :
    (effect settings m index s (.compare kind op)).Ends (Opcode.compare kind op).Raises
      ((Opcode.compare kind op).Sends index s) := by
  rw [(effect_handled settings m index s).2.2.1 kind op number handed]
  simp only [word, read_bind, done_bind, lift_eq, Ends]
  exact fun x y =>
    .bind_ok (Opcode.judge_compare (List.mem_cons_of_mem _ handed) op _ _) fun holds => rfl

theorem effect_ends (settings : Settings) (m : Module) (index : Nat) (s : Statement)
    (op : Opcode) : (effect settings m index s op).Ends op.Raises (op.Sends index s) := by
  cases op with
  | done => rfl
  | ret => rfl
  | call argc => exact fun ws => ⟨_, rfl⟩
  | arithmetic kind op =>
    rw [(effect_handled settings m index s).1]
    simp only [word, read_bind, done_bind, lift_eq, Ends]
    exact fun x y => .bind (.ofExcept fun e h => Opcode.compute_raises h) fun w _ => rfl
  | connective kind op =>
    rw [(effect_handled settings m index s).2.1]
    simp only [word, read_bind, done_bind, lift_eq, Ends]
    exact fun x y => .bind_ok ⟨_, Opcode.judge_connective kind op _ _⟩ fun holds => rfl
  | complement kind => cases kind <;> simp [effect, Ends, Opcode.Sends]
  | compare kind op =>
    cases kind with
    | string =>
      simp only [effect, reference, word, test, putFlag, putWord, put, read_bind, done_bind,
        observe_bind, write_bind, pure_eq, Ends]
      refine fun r t => ⟨fun a e h => ?_, fun _ => rfl⟩
      cases hc : a.compare (r.headD 0).toInt32 (t.headD 0).toInt32 with
      | ok o => rw [hc] at h; cases h
      | error e' =>
        rw [hc] at h
        cases h
        obtain ⟨i, rfl⟩ := StringArena.compare_error hc
        exact .invalidString _ i
    | float =>
      rw [(effect_handled settings m index s).2.2.2.1]
      simp only [word, read_bind, done_bind, lift_eq, Ends]
      refine fun x y => .bind_ok (Opcode.judge_compare List.mem_cons_self op _ _) fun holds => ?_
      cases op <;> rfl
    | integer => exact compare_ends settings m index s .integer (by decide) op
    | pointer => exact compare_ends settings m index s .integer (by decide) op
    | unsigned => exact compare_ends settings m index s .unsigned (by decide) op
  | same kind equal => cases kind <;> simp [effect, Ends, Opcode.Sends]
  | isEmpty kind =>
    cases kind with
    | string =>
      simp only [effect, reference, word, test, putFlag, putWord, put, read_bind, done_bind,
        observe_bind, write_bind, pure_eq, Ends]
      refine fun r => ⟨fun a e h => ?_, fun _ => rfl⟩
      obtain ⟨i, rfl⟩ := StringArena.isEmpty_error h
      exact .invalidString _ i
    | _ => simp [effect, Ends, Opcode.Sends]
  | load cell =>
    simp only [effect, integer, word, read_bind, done_bind, lift_eq, pure_eq, Ends]
    intro entity field
    exact entityAddress_bind_ends _ _ _ _ _ fun address _ => rfl
  | fieldAddress =>
    simp only [effect, integer, word, read_bind, done_bind, lift_eq, pure_eq, Ends]
    intro entity field
    split
    · exact ⟨trivial, fun _ h => Fault.noConfusion h, fun _ h => Fault.noConfusion h⟩
    · apply entityAddress_bind_ends _ _ _ _ _
      intro address
      split
      · exact .invalidGlobal _ address
      · rfl
  | branch condition =>
    simp only [effect, word, read_bind, done_bind, pure_eq, Ends]
    intro x
    split
    · exact jumpTo_ends trivial (.inr rfl)
    · exact .inl rfl
  | goto => exact jumpTo_ends trivial rfl
  | jump => exact fun _ => jumpTo_ends trivial ⟨_, rfl⟩
  | jumpTable =>
    simp only [effect, integer, word, read_bind, done_bind, pure_eq, Ends]
    exact fun _ _ _ => jumpTo_ends trivial ⟨_, rfl⟩
  | state =>
    simp only [effect]
    refine .bind (binding_ends ..) fun self _ => .bind (binding_ends ..) fun time _ =>
      .bind (binding_ends ..) fun nextThink _ => .bind (binding_ends ..) fun frame _ =>
      .bind (binding_ends ..) ?_
    intro think _
    simp only [integer, word, putWord, put, read_bind, done_bind, write_bind, lift_eq, pure_eq,
      Ends]
    intro entity now number function
    apply entityAddress_bind_ends _ _ _ _ _
    intro first
    apply entityAddress_bind_ends _ _ _ _ _
    intro second
    exact entityAddress_bind_ends _ _ _ _ _ fun third => rfl
  | _ => simp [effect, Ends, Opcode.Sends]

end Step

section step
variable {settings : Settings} {m : Module} {index : Nat} {s : Statement} {st st' : Store}

/-- A statement with an opcode sends control where that opcode does, or faults as it can. -/
theorem step_sends (settings : Settings) (m : Module) (index : Nat) (st : Store) {op : Opcode}
    (ho : Opcode.ofCode? s.op = some op) :
    (∀ control, (step settings m index s st).1 = .ok control → op.Sends index s control) ∧
      ∀ e, (step settings m index s st).1 = .error e → op.Raises e := by
  unfold step
  rw [ho]
  exact Plan.run_ends (.invalidGlobal op) (.invalidString op) s st
    (Step.effect_ends settings m index s op)

theorem step_ends (settings : Settings) (m : Module) (index : Nat) (s : Statement) (st : Store) :
    (∀ control, (step settings m index s st).1 = .ok control →
      ∃ op, Opcode.ofCode? s.op = some op ∧ op.Leads s control) ∧
    ∀ e, (step settings m index s st).1 = .error e → e.OfStatement := by
  cases ho : Opcode.ofCode? s.op with
  | none =>
    unfold step
    rw [ho]
    exact ends_of_error trivial
  | some op =>
    obtain ⟨sends, faults⟩ := step_sends settings m index st ho
    exact ⟨fun control hc => ⟨op, rfl, (sends control hc).leads⟩,
      fun e he => (faults e he).effect.ofStatement⟩

theorem step_call {function : Word} {argc : Nat}
    (h : step settings m index s st = (.ok (.call function argc), st')) : st' = st := by
  obtain ⟨op, ho, hl⟩ := (step_ends settings m index s st).1 _ (congrArg Prod.fst h)
  cases op with
  | call argc =>
    unfold step at h
    rw [ho] at h
    simp only [Step.effect, Plan.word, Plan.read_bind, Plan.done_bind, Plan.pure_eq, Plan.run] at h
    split at h
    · cases h
    · exact (congrArg Prod.snd h).symm
  | done => cases hl
  | ret => cases hl
  | _ => exact hl.elim

theorem step_return (ho : Opcode.ofCode? s.op = some .done ∨ Opcode.ofCode? s.op = some .ret) :
    step settings m index s st = (.ok (.ret s.a), st) := by
  unfold step
  rcases ho with ho | ho <;> rw [ho] <;> rfl

theorem step_ret {value : UInt16} (h : step settings m index s st = (.ok (.ret value), st')) :
    st' = st ∧ value = s.a ∧
      (Opcode.ofCode? s.op = some .done ∨ Opcode.ofCode? s.op = some .ret) := by
  obtain ⟨op, ho, hl⟩ := (step_ends settings m index s st).1 _ (congrArg Prod.fst h)
  have returns : op = .done ∨ op = .ret := by
    cases op with
    | done => exact .inl rfl
    | ret => exact .inr rfl
    | call argc =>
      obtain ⟨function, hc⟩ := hl
      cases hc
    | _ => exact hl.elim
  have hop : Opcode.ofCode? s.op = some .done ∨ Opcode.ofCode? s.op = some .ret := by
    rcases returns with rfl | rfl
    · exact .inl ho
    · exact .inr ho
  rw [step_return hop] at h
  cases h
  exact ⟨rfl, rfl, hop⟩

end step
end GameBytecode
