import GameBytecode.Proofs.ArgumentWiring
import GameBytecode.Proofs.LocalsRoundTrip

/-!
Entering a function whose locals have room for its arguments fails before anything is changed, or does
not fail, and then leaving it undoes it.
-/
namespace GameBytecode

namespace Action
variable {α β : Type} {size low high : Nat}

/-- On every memory of a size the action has an answer, and writes between two addresses at most. -/
def Fills (size low high : Nat) (a : Action α) (x : α) : Prop :=
  ∀ st : Store, st.memory.words.size = size → ∃ memory : Memory,
    a st = (.ok x, ⟨memory, st.strings⟩) ∧ memory.words.size = size ∧
      ∀ w, (w < low ∨ high ≤ w) → memory.words[w]? = st.memory.words[w]?

theorem Fills.pure (x : α) : Fills size low high (Pure.pure x : Action α) x :=
  fun st hs => ⟨st.memory, rfl, hs, fun _ _ => rfl⟩

theorem Fills.bind {a : Action α} {f : α → Action β} {x : α} {y : β}
    (ha : Fills size low high a x) (hf : Fills size low high (f x) y) :
    Fills size low high (a >>= f) y := by
  intro st hs
  obtain ⟨memory, ran, hm, kept⟩ := ha st hs
  obtain ⟨memory', ran', hm', kept'⟩ := hf ⟨memory, st.strings⟩ hm
  refine ⟨memory', ?_, hm', fun w outside => (kept' w outside).trans (kept w outside)⟩
  change ExceptT.bindCont f (a st).1 (a st).2 = _
  rw [ran]
  exact ran'

theorem put_fills {address : Nat} {ws : List Word} (above : low ≤ address)
    (below : address + ws.length ≤ high) (inside : high ≤ size) :
    Fills size low high (put address ws) () := by
  rintro ⟨memory, strings⟩ rfl
  have within : address + ws.length ≤ memory.words.size := Nat.le_trans below inside
  have resolved : memory.resolve address ws.length = .ok address := by
    rw [Memory.resolve_natCast, if_pos within]
  refine ⟨⟨Memory.setWords memory.words address ws⟩, ?_, Memory.size_setWords .., ?_⟩
  · simp only [put, resolved]
  · intro w outside
    rw [Memory.getElem?_setWords _ _ _ _ within, if_neg (by omega)]

theorem copy_fills {source target count : Nat} (readable : source + count ≤ size)
    (above : low ≤ target) (below : target + count ≤ high) (inside : high ≤ size) :
    Fills size low high (copy source target count) () := by
  intro st hs
  have length : (st.memory.words.extract source (source + count)).toList.length = count := by
    rw [Array.length_toList, Array.size_extract]
    omega
  obtain ⟨memory, ran, rest⟩ := put_fills above (by rw [length]; exact below) inside st hs
  refine ⟨memory, ?_, rest⟩
  change ExceptT.bindCont (put target) (st.memory.slice source count) st = _
  rw [Memory.slice_ok (by rw [hs]; exact readable)]
  exact ran

end Action

/-- The locals of a function are words of a memory of a size, as are its arguments, and they have room
for these. -/
structure FunctionRecord.Roomy (f : FunctionRecord) (size : Nat) : Prop where
  span : f.argumentSpan ≤ f.locals.toNat
  inside : f.start.toNat + f.locals.toNat ≤ size
  slots : Address.reserved ≤ size
  fixed : ∀ i (h : i < f.fixedSizes.length), Address.argument i + f.fixedSizes[i] ≤ size

namespace Machine
variable {size low high : Nat}

theorem passFixed_fills {target argument : Nat} {sizes : List Nat}
    (readable : ∀ i (h : i < sizes.length), Address.argument (argument + i) + sizes[i] ≤ size)
    (above : low ≤ target) (below : target + sizes.sum ≤ high) (inside : high ≤ size) :
    Action.Fills size low high (passFixed target argument sizes) ((target + sizes.sum : Nat) : Int) := by
  induction sizes generalizing target argument with
  | nil => exact .pure _
  | cons width rest ih =>
    rw [List.sum_cons] at below ⊢
    have first : Address.argument argument + width ≤ size := readable 0 (Nat.zero_lt_succ _)
    have later (i : Nat) (h : i < rest.length) :
        Address.argument (argument + 1 + i) + rest[i] ≤ size := by
      rw [Nat.add_assoc, Nat.add_comm 1]
      exact readable (i + 1) (Nat.succ_lt_succ h)
    refine .bind (Action.copy_fills first above (by omega) inside) ?_
    rw [← Int.natCast_add, ← Nat.add_assoc]
    exact ih later (by omega) (by omega)

section passed
variable {f : FunctionRecord} (roomy : f.Roomy size)
include roomy

theorem passFurther_fills (variadic : f.isVariadic = true) (argc : Nat) :
    Action.Fills size f.start.toNat (f.start.toNat + f.locals.toNat)
      (passFurther f argc f.furtherStart) () := by
  have span := f.argumentSpan_of_variadic variadic
  have room := roomy.span
  have inside := roomy.inside
  have start : f.start.toNat ≤ f.furtherStart := Nat.le_add_right _ _
  have readable : Address.argument f.fixedCount + f.slotWords ≤ size := by
    have few : f.fixedCount ≤ maxParameters := Nat.min_le_right _ _
    refine Nat.le_trans (Nat.le_of_eq ?_) roomy.slots
    unfold Address.argument FunctionRecord.slotWords Address.argumentWords Address.reserved
      maxParameters at *
    omega
  have word {address : Nat} (w : Word) (above : f.start.toNat ≤ address)
      (below : address < f.start.toNat + f.locals.toNat) :
      Action.Fills size f.start.toNat (f.start.toNat + f.locals.toNat)
        (Action.putWord address w) () := Action.put_fills above below inside
  have counted := word (UInt32.ofNat (argc - f.fixedCount)) start (by omega)
  have addressed : Action.Fills size f.start.toNat (f.start.toNat + f.locals.toNat)
      (Action.putWord (f.furtherStart + 1 : Nat) (Word.ofSigned (f.furtherStart + 2))) () :=
    word _ (by omega) (by omega)
  have copied : Action.Fills size f.start.toNat (f.start.toNat + f.locals.toNat)
      (Action.copy (Address.argument f.fixedCount) (f.furtherStart + 2 : Nat) f.slotWords) () :=
    Action.copy_fills readable (by omega) (by omega) inside
  exact .bind counted (.bind addressed copied)

theorem passArguments_fills (poison : Bool) (argc : Nat) :
    Action.Fills size f.start.toNat (f.start.toNat + f.locals.toNat)
      (passArguments poison f argc) () := by
  have span := roomy.span
  have inside := roomy.inside
  have fixed : Action.Fills size f.start.toNat (f.start.toNat + f.locals.toNat)
      (passFixed f.start.toNat 0 f.fixedSizes) (f.furtherStart : Int) := by
    refine passFixed_fills (fun i h => ?_) (Nat.le_refl _) ?_ inside
    · rw [Nat.zero_add]
      exact roomy.fixed i h
    · exact Nat.le_trans f.furtherStart_le (Nat.add_le_add_left span _)
  have passed : Action.Fills size f.start.toNat (f.start.toNat + f.locals.toNat) (do
      let target ← passFixed f.start.toNat 0 f.fixedSizes
      if f.isVariadic then passFurther f argc target : Action Unit) () := by
    refine .bind fixed ?_
    split
    · rename_i variadic
      exact passFurther_fills roomy variadic argc
    · exact .pure ()
  unfold passArguments
  cases poison with
  | false => exact passed
  | true =>
    refine .bind (Action.put_fills (Nat.le_refl _) ?_ inside) passed
    exact Nat.le_of_eq (congrArg (f.start.toNat + ·) List.length_replicate)

end passed

/-- Whether a function that starts at a statement and has its locals in memory can be entered depends
on the two stacks alone. -/
theorem admission_eq {v : Machine} {m : Module} {number : Nat} {f : FunctionRecord}
    (found : m.function? number = some f) (positive : 0 < f.entry)
    (starts : f.entry.toInt.toNat < m.statements.size)
    (inside : f.start.toNat + f.locals.toNat ≤ v.store.memory.words.size) :
    v.admission m number =
      if v.control.calls.hasRoom = false then .error (.stackOverflow v.control.calls.limit)
      else if v.control.saved.hasRoom f.locals.toNat = false then
        .error (v.control.saved.overflow f.locals.toNat)
      else .ok f := by
  have entered : ¬ (f.entry ≤ 0 ∨ m.statements.size ≤ f.entry.toInt.toNat) :=
    not_or.mpr ⟨Int32.not_le.mpr positive, Nat.not_le.mpr starts⟩
  have resolved : v.store.memory.resolve f.start.toNat f.locals.toNat = .ok f.start.toNat := by
    rw [Memory.resolve_natCast, if_pos inside]
  unfold admission
  rw [found]
  simp only [if_neg entered, resolved]
  cases v.control.calls.hasRoom with
  | false => rfl
  | true => cases v.control.saved.hasRoom f.locals.toNat <;> rfl

theorem restored_eq {before after : Memory} {f : FunctionRecord}
    (inside : f.start.toNat + f.locals.toNat ≤ before.words.size)
    (size : after.words.size = before.words.size)
    (kept : ∀ w, (w < f.start.toNat ∨ f.start.toNat + f.locals.toNat ≤ w) →
      after.words[w]? = before.words[w]?) :
    Memory.setWords after.words f.start.toNat (before.region f) = before.words := by
  have length := Memory.length_region inside
  refine Array.ext_getElem? fun w => ?_
  rw [Memory.getElem?_setWords _ _ _ _ (by rw [length, size]; exact inside), length]
  split
  · rename_i within
    rw [Memory.getElem?_region _ inside (by omega), Nat.add_sub_cancel' within.1]
  · rename_i outside
    exact kept w (by omega)

/-- A function with room for its arguments is refused for want of a frame or of saved locals, and then
nothing changes; or it is entered, and leaving it undoes that. -/
theorem enter_leave {v : Machine} {m : Module} {number : Nat} {f : FunctionRecord}
    (found : m.function? number = some f) (nonzero : number ≠ 0) (positive : 0 < f.entry)
    (starts : f.entry.toInt.toNat < m.statements.size)
    (roomy : f.Roomy v.store.memory.words.size) :
    (v.control.calls.hasRoom = false ∧
      v.enter m number = (.error (.stackOverflow v.control.calls.limit), v)) ∨
    (v.control.saved.hasRoom f.locals.toNat = false ∧
      v.enter m number = (.error (v.control.saved.overflow f.locals.toNat), v)) ∨
    ∃ v', v.enter m number = (.ok f.entry.toInt.toNat, v') ∧
      (∀ w : Nat, (w < f.start.toNat ∨ f.start.toNat + f.locals.toNat ≤ w) →
        v'.store.memory.words[w]? = v.store.memory.words[w]?) ∧
      v'.leave m = (.ok (), v) := by
  have admission := admission_eq (v := v) found positive starts roomy.inside
  unfold enter
  rw [admission]
  by_cases frame : v.control.calls.hasRoom = false
  · rw [if_pos frame]
    exact .inl ⟨frame, rfl⟩
  rw [if_neg frame]
  by_cases room : v.control.saved.hasRoom f.locals.toNat = false
  · rw [if_pos room]
    exact .inr (.inl ⟨room, rfl⟩)
  rw [if_neg room]
  obtain ⟨memory, passed, size, kept⟩ :=
    passArguments_fills roomy v.settings.deadbeefLocals v.argc v.store rfl
  right
  right
  simp only [act_eq]
  refine ⟨{ v with
    control := v.control.save number (v.store.memory.region f)
    store := ⟨memory, v.store.strings⟩ }, ?_, kept, ?_⟩
  · rw [show passArguments _ _ _ _ = _ from passed]
    rfl
  · have enterable : m.Enterable memory.words.size number f :=
      ⟨found, nonzero, by rw [size]; exact roomy.inside⟩
    have saved : v.control.save number (v.store.memory.region f) =
        { v.control.save number (v.store.memory.region f) with
          statement := v.control.statement } := rfl
    rw [leave_of_save saved enterable (Memory.length_region roomy.inside)]
    dsimp only
    rw [restored_eq roomy.inside size kept]

end Machine
end GameBytecode
