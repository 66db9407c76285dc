import GameBytecode.Machine
import GameBytecode.Proofs.StoreShape

/-!
Entering and leaving functions. What a function does is undone in the order in which it was done:
a control state above another one was reached from it by entering functions only.
-/
namespace GameBytecode

/-- A function of a module other than function 0, with its locals inside a memory of some size. -/
structure Module.Enterable (m : Module) (size number : Nat) (f : FunctionRecord) : Prop where
  found : m.function? number = some f
  nonzero : number ≠ 0
  inside : f.start.toNat + f.locals.toNat ≤ size

/-- The words of the locals of a function. -/
def Memory.region (memory : Memory) (f : FunctionRecord) : List Word :=
  (memory.words.extract f.start.toNat (f.start.toNat + f.locals.toNat)).toList

theorem Memory.length_region {memory : Memory} {f : FunctionRecord}
    (h : f.start.toNat + f.locals.toNat ≤ memory.words.size) :
    (memory.region f).length = f.locals.toNat := by
  simp only [region, Array.length_toList, Array.size_extract]
  omega

/-- A control state reached from a base by entering functions and by moving on in the last one. -/
inductive CallState.Above (m : Module) (size : Nat) (base : CallState) : CallState → Prop where
  | base : Above m size base base
  | entered {c : CallState} {number : Nat} {f : FunctionRecord} {ws : List Word} (statement : Nat)
      (below : Above m size base c) (enterable : m.Enterable size number f)
      (frame : c.calls.hasRoom) (room : c.saved.hasRoom f.locals.toNat)
      (length : ws.length = f.locals.toNat) :
      Above m size base { c.save number ws with statement }

namespace CallState.Above
variable {m : Module} {size : Nat} {base c : CallState}

theorem depth_le (h : Above m size base c) : base.calls.depth ≤ c.calls.depth := by
  induction h with
  | base => exact Nat.le_refl _
  | entered statement below _ _ _ _ ih => exact Nat.le_succ_of_le ih

theorem eq_base (h : Above m size base c) (hd : c.calls.depth ≤ base.calls.depth) : c = base := by
  cases h with
  | base => rfl
  | entered statement below =>
    have := below.depth_le
    simp only [CallState.save, CallStack.add] at hd
    omega

theorem move (h : Above m size base c) (hd : base.calls.depth < c.calls.depth) (statement : Nat) :
    Above m size base { c with statement } := by
  cases h with
  | base => omega
  | entered _ below enterable frame room length =>
    exact .entered statement below enterable frame room length

theorem trans {c' : CallState} (h : Above m size base c) (h' : Above m size c c') :
    Above m size base c' := by
  induction h' with
  | base => exact h
  | entered statement _ enterable frame room length ih =>
    exact .entered statement ih enterable frame room length

end CallState.Above

namespace Action
variable {α β : Type}

theorem bind_alike {a : Action α} {f : α → Action β} (ha : ∀ st, Store.Alike st (a st).2)
    (hf : ∀ x st, Store.Alike st (f x st).2) (st : Store) : st.Alike ((a >>= f) st).2 := by
  have h := ha st
  change st.Alike ((ExceptT.bindCont f (a st).1) (a st).2).2
  cases hr : (a st).1 with
  | ok x => exact h.trans (hf x _)
  | error e => exact h

theorem put_alike (address : Int) (ws : List Word) (st : Store) :
    st.Alike (put address ws st).2 := by
  obtain ⟨memory, strings⟩ := st
  simp only [put]
  split
  · exact .refl _
  · exact ⟨Memory.size_setWords .., rfl⟩

theorem copy_alike (source target : Int) (count : Nat) (st : Store) :
    st.Alike (copy source target count st).2 :=
  bind_alike (fun st => .refl st) (fun ws => put_alike target ws) st

theorem ok_of_bind {a : Action α} {f : α → Action β} {st st' : Store} {y : β}
    (h : (a >>= f) st = (.ok y, st')) : ∃ x st₁, a st = (.ok x, st₁) ∧ f x st₁ = (.ok y, st') := by
  change ExceptT.bindCont f (a st).1 (a st).2 = (.ok y, st') at h
  cases hr : a st with
  | mk result st₁ =>
    rw [hr] at h
    cases result with
    | error e => cases h
    | ok x => exact ⟨x, st₁, rfl, h⟩

theorem put_ok {address : Nat} {ws : List Word} {st st' : Store}
    (h : put address ws st = (.ok (), st')) :
    address + ws.length ≤ st.memory.words.size ∧ ∀ a, st'.memory.words[a]? =
      if address ≤ a ∧ a < address + ws.length then ws[a - address]? else st.memory.words[a]? := by
  obtain ⟨memory, strings⟩ := st
  simp only [put] at h
  cases hr : memory.resolve address ws.length with
  | error e =>
    rw [hr] at h
    cases h
  | ok i =>
    obtain ⟨-, rfl, inside⟩ := Memory.resolve_ok hr
    rw [hr] at h
    cases h
    exact ⟨inside, fun a => Memory.getElem?_setWords _ _ _ _ inside⟩

theorem copy_ok {source target count : Nat} {st st' : Store}
    (h : copy source target count st = (.ok (), st')) :
    source + count ≤ st.memory.words.size ∧ target + count ≤ st.memory.words.size ∧
      ∀ a, st'.memory.words[a]? = if target ≤ a ∧ a < target + count
        then st.memory.words[source + (a - target)]? else st.memory.words[a]? := by
  obtain ⟨ws, st₁, sliced, written⟩ := ok_of_bind h
  obtain ⟨hs, rfl⟩ := Prod.mk.inj sliced
  simp only [Memory.slice] at hs
  cases hr : st.memory.resolve source count with
  | error e =>
    rw [hr] at hs
    cases hs
  | ok i =>
    obtain ⟨-, rfl, readable⟩ := Memory.resolve_ok hr
    rw [hr] at hs
    obtain rfl := Except.ok.inj hs
    have length : (st.memory.words.extract i (i + count)).toList.length = count := by
      rw [Array.length_toList, Array.size_extract]
      omega
    obtain ⟨writable, words⟩ := put_ok written
    simp only [length] at writable words
    refine ⟨readable, writable, fun a => (words a).trans ?_⟩
    split
    · rw [Array.getElem?_toList, Array.getElem?_extract, if_pos (by omega)]
    · rfl

end Action

namespace Machine
variable {v : Machine} {m : Module}

def setStore (v : Machine) (store : Store) : Machine := { v with store }

@[simp] theorem setStore_store (v : Machine) (store : Store) : (v.setStore store).store = store := rfl
theorem act_eq {α : Type} (a : Action α) (v : Machine) :
    v.act a = ((a v.store).1, v.setStore (a v.store).2) := rfl

theorem passFixed_alike (target : Int) (argument : Nat) (sizes : List Nat) (st : Store) :
    st.Alike (passFixed target argument sizes st).2 := by
  induction sizes generalizing target argument st with
  | nil => exact .refl st
  | cons width rest ih =>
    exact Action.bind_alike (Action.copy_alike _ _ _) (fun _ => ih _ _) st

theorem passFurther_alike (f : FunctionRecord) (argc : Nat) (target : Int) (st : Store) :
    st.Alike (passFurther f argc target st).2 :=
  Action.bind_alike (Action.put_alike _ _)
    (fun _ => Action.bind_alike (Action.put_alike _ _) fun _ => Action.copy_alike _ _ _) st

theorem passArguments_alike (poison : Bool) (f : FunctionRecord) (argc : Nat) (st : Store) :
    st.Alike (passArguments poison f argc st).2 := by
  have passed : ∀ st, Store.Alike st ((do
      let target ← passFixed f.start.toNat 0 f.fixedSizes
      if f.isVariadic then passFurther f argc target : Action Unit) st).2 := by
    apply Action.bind_alike (passFixed_alike f.start.toNat 0 f.fixedSizes)
    intro target st
    split
    · exact passFurther_alike f argc target st
    · exact .refl st
  unfold passArguments
  cases poison with
  | false => exact passed st
  | true => exact Action.bind_alike (Action.put_alike _ _) (fun _ => passed) st

theorem admission_ok {number : Nat} {f : FunctionRecord} (h : v.admission m number = .ok f) :
    m.function? number = some f ∧ f.start.toNat + f.locals.toNat ≤ v.store.memory.words.size ∧
      v.control.calls.hasRoom ∧ v.control.saved.hasRoom f.locals.toNat ∧
      0 < f.entry ∧ f.entry.toInt.toNat < m.statements.size := by
  unfold admission at h
  cases hf : m.function? number with
  | none => rw [hf] at h; cases h
  | some g =>
    rw [hf] at h
    simp only [bind, Except.bind, pure, Except.pure] at h
    split at h
    · cases h
    rename_i starts
    obtain ⟨positive, past⟩ := not_or.mp starts
    split at h
    · rename_i frame
      split at h
      · rename_i room
        cases hr : v.store.memory.resolve g.start.toNat g.locals.toNat with
        | error e => rw [hr] at h; cases h
        | ok i =>
          rw [hr] at h
          cases h
          obtain ⟨-, rfl, inside⟩ := Memory.resolve_ok hr
          exact ⟨rfl, inside, frame, room, Int32.not_le.mp positive, Nat.not_le.mp past⟩
      · cases h
    · cases h

theorem enter_cases (v : Machine) (m : Module) {number : Nat} (h0 : number ≠ 0) :
    (∃ e, v.enter m number = (.error e, v)) ∨
      ∃ f, m.Enterable v.store.memory.words.size number f ∧ v.control.calls.hasRoom ∧
        v.control.saved.hasRoom f.locals.toNat ∧ ∃ result store, v.store.Alike store ∧
          v.enter m number = (result,
            { v with control := v.control.save number (v.store.memory.region f), store }) := by
  unfold enter
  cases ha : v.admission m number with
  | error e => exact .inl ⟨e, rfl⟩
  | ok f =>
    obtain ⟨found, inside, frame, room, -⟩ := admission_ok ha
    exact .inr ⟨f, ⟨found, h0, inside⟩, frame, room, _, _,
      passArguments_alike v.settings.deadbeefLocals f v.argc v.store, rfl⟩

theorem restoreLocals_eq {number : Nat} {f : FunctionRecord} (words : Array Word) (ws : List Word)
    (he : m.Enterable v.store.memory.words.size number f) (hn : v.control.function = number)
    (hs : v.control.saved.words = words ++ ws.toArray) (hw : ws.length = f.locals.toNat) :
    v.restoreLocals m = (.ok (),
      { v with
        control.saved.words := words
        store.memory.words := Memory.setWords v.store.memory.words f.start.toNat ws }) := by
  have top : v.control.saved.top? f.locals.toNat = .ok ws := by
    unfold SavedLocals.top? SavedLocals.used
    rw [hs, if_neg (by simp only [Array.size_append, List.size_toArray]; omega)]
    simp only [Array.size_append, List.size_toArray, ← hw, Nat.add_sub_cancel, Except.ok.injEq]
    apply List.ext_getElem
    · simp
    · intro i h₁ h₂
      simp only [Array.getElem_toList, Array.getElem_extract]
      rw [Array.getElem_append_right (by omega)]
      simp
  have drop : (v.control.saved.drop f.locals.toNat).words = words := by
    unfold SavedLocals.drop SavedLocals.used
    simp only [hs, Array.size_append, List.size_toArray, hw, Nat.add_sub_cancel]
    apply Array.ext
    · simp
    · intro i h₁ h₂
      simp
  have resolve : v.store.memory.resolve (f.start.toNat : Int) ws.length = .ok f.start.toNat := by
    rw [Memory.resolve_natCast, if_pos (by have := he.inside; omega)]
  unfold restoreLocals
  rw [hn, he.found]
  simp only [if_neg he.nonzero, top, act_eq, Action.put, resolve]
  rw [← drop]
  rfl

/-- Leaving a function undoes entering it: the saved words are back in memory. -/
theorem leave_of_save {c : CallState} {number statement : Nat} {f : FunctionRecord}
    {ws : List Word} (hc : v.control = { c.save number ws with statement })
    (he : m.Enterable v.store.memory.words.size number f) (hw : ws.length = f.locals.toNat) :
    v.leave m = (.ok (),
      { v with
        control := c
        store.memory.words := Memory.setWords v.store.memory.words f.start.toNat ws }) := by
  have pop : v.control.calls.pop = .ok (⟨c.statement, c.function⟩, c.calls) := by
    rw [hc]
    rfl
  unfold leave
  simp only [pop]
  rw [restoreLocals_eq c.saved.words ws (v := { v with control.calls := c.calls }) he
    (by rw [hc]; rfl) (by rw [hc]; rfl) hw]
  rw [hc]
  rfl

/-- What leaving does above a base: it puts back the locals of the function entered last. -/
theorem leave_above {base : CallState}
    (h : base.Above m v.store.memory.words.size v.control)
    (hd : base.calls.depth < v.control.calls.depth) :
    ∃ c f ws, base.Above m v.store.memory.words.size c ∧
      c.calls.depth + 1 = v.control.calls.depth ∧
      (∃ statement, v.control = { c.save v.control.function ws with statement }) ∧
      m.Enterable v.store.memory.words.size v.control.function f ∧ ws.length = f.locals.toNat ∧
      v.leave m = (.ok (),
        { v with
          control := c
          store.memory.words := Memory.setWords v.store.memory.words f.start.toNat ws }) := by
  generalize hc : v.control = control at h hd
  cases h with
  | base => omega
  | entered statement below enterable frame room length =>
    exact ⟨_, _, _, below, rfl, ⟨statement, rfl⟩, enterable, length,
      leave_of_save hc enterable length⟩

theorem restoreLocals_calls (v : Machine) (m : Module) :
    (v.restoreLocals m).2.control.calls = v.control.calls := by
  unfold restoreLocals
  cases m.function? v.control.function with
  | none => rfl
  | some f =>
    dsimp only
    split
    · rfl
    · cases v.control.saved.top? f.locals.toNat with
      | error e => rfl
      | ok ws =>
        simp only [act_eq]
        cases (Action.put f.start.toNat ws v.store).1 <;> rfl

/-- Leaving takes one frame away, even when the locals cannot be put back. -/
theorem leave_depth (v : Machine) (m : Module) : (v.leave m).2.depth = v.depth - 1 := by
  unfold leave
  cases hp : v.control.calls.pop with
  | error e =>
    unfold CallStack.pop at hp
    split at hp
    · rename_i none
      have outside : v.depth = 0 := by
        unfold depth
        rw [v.control.calls.depth_eq, none, List.length_nil]
      exact outside.trans (by rw [outside])
    · cases hp
  | ok popped =>
    obtain ⟨frame, calls⟩ := popped
    have restored := restoreLocals_calls { v with control.calls := calls } m
    dsimp only
    unfold depth
    rw [restored]
    unfold CallStack.pop at hp
    split at hp
    · cases hp
    · cases hp
      rfl

private theorem repeat_succ {α : Type} (f : α → α) (n : Nat) (a : α) :
    Nat.repeat f (n + 1) a = Nat.repeat f n (f a) := by
  induction n with
  | zero => rfl
  | succ n ih => exact congrArg f ih

theorem unwind_of_le {depth : Nat} (h : v.depth ≤ depth) : v.unwind m depth = v := by
  unfold unwind
  rw [Nat.sub_eq_zero_of_le h]
  rfl

theorem unwind_of_lt {depth : Nat} (h : depth < v.depth) :
    v.unwind m depth = (v.leave m).2.unwind m depth := by
  have left := leave_depth v m
  unfold unwind
  rw [show v.depth - depth = ((v.leave m).2.depth - depth) + 1 by omega]
  exact repeat_succ _ _ v

theorem unwind_above {base : CallState} (h : base.Above m v.store.memory.words.size v.control) :
    ∃ memory : Memory, memory.words.size = v.store.memory.words.size ∧
      v.unwind m base.calls.depth = { v with control := base, store.memory := memory } := by
  induction hn : v.depth - base.calls.depth generalizing v with
  | zero =>
    have hd : v.control.calls.depth ≤ base.calls.depth := Nat.le_of_sub_eq_zero hn
    have hb := h.eq_base hd
    exact ⟨v.store.memory, rfl, by rw [unwind_of_le hd, ← hb]⟩
  | succ n ih =>
    have hd : base.calls.depth < v.control.calls.depth := by unfold depth at hn; omega
    obtain ⟨c, f, ws, below, depth_eq, -, -, -, hl⟩ := leave_above h hd
    have left := leave_depth v m
    have size : (v.leave m).2.store.memory.words.size = v.store.memory.words.size := by
      rw [hl]; exact Memory.size_setWords ..
    obtain ⟨memory, hm, hu⟩ := ih (v := (v.leave m).2)
      (by rw [size, hl]; exact below) (by omega)
    refine ⟨memory, hm.trans size, ?_⟩
    rw [unwind_of_lt hd, hu, hl]

end Machine
end GameBytecode
