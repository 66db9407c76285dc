import GameBytecode.Machine

/-!
What every computation on the store leaves alone: the size of memory and the number of runs in
progress. Before any, a machine is as it was loaded.
-/
namespace GameBytecode

/-- Two stores whose memories have one size, with the same number of runs in progress. -/
structure Store.Alike (st st' : Store) : Prop where
  size : st'.memory.words.size = st.memory.words.size
  runs : st'.strings.runs = st.strings.runs

namespace Store.Alike
variable {st st' st'' : Store}

theorem refl (st : Store) : st.Alike st := ⟨rfl, rfl⟩

theorem trans (h : st.Alike st') (h' : st'.Alike st'') : st.Alike st'' :=
  ⟨h'.size.trans h.size, h'.runs.trans h.runs⟩

end Store.Alike

@[simp] theorem Memory.size_setWords (words : Array Word) (index : Nat) (ws : List Word) :
    (setWords words index ws).size = words.size := by
  induction ws generalizing words index with
  | nil => rfl
  | cons w rest ih => rw [setWords, ih, Array.size_setIfInBounds]

theorem Memory.getElem?_setWords (words : Array Word) (index a : Nat) (ws : List Word)
    (inside : index + ws.length ≤ words.size) :
    (setWords words index ws)[a]? =
      if index ≤ a ∧ a < index + ws.length then ws[a - index]? else words[a]? := by
  induction ws generalizing words index with
  | nil => rw [if_neg (by rw [List.length_nil]; omega)]; rfl
  | cons w rest ih =>
    rw [List.length_cons] at inside ⊢
    rw [setWords, ih _ _ (by rw [Array.size_setIfInBounds]; omega)]
    by_cases first : a = index
    · subst first
      rw [if_neg (by omega), if_pos (by omega), Array.getElem?_setIfInBounds_self_of_lt (by omega),
        Nat.sub_self, List.getElem?_cons_zero]
    · rw [Array.getElem?_setIfInBounds_ne (Ne.symm first)]
      by_cases later : index + 1 ≤ a ∧ a < index + 1 + rest.length
      · rw [if_pos later, if_pos (by omega), show a - index = (a - (index + 1)) + 1 by omega,
          List.getElem?_cons_succ]
      · rw [if_neg later, if_neg (by omega)]

theorem ok_of_map {ε α β : Type} {x : Except ε α} {f : α → β} {b : β} (h : x.map f = .ok b) :
    ∃ a, x = .ok a ∧ f a = b := by
  cases x with
  | error e => cases h
  | ok a => exact ⟨a, rfl, Except.ok.inj h⟩

theorem Memory.resolve_ok {memory : Memory} {address : Int} {count index : Nat}
    (h : memory.resolve address count = .ok index) :
    0 ≤ address ∧ index = address.toNat ∧ index + count ≤ memory.words.size := by
  unfold resolve size at h
  split at h
  · cases h
  · cases h
    omega

theorem Memory.resolve_natCast (memory : Memory) (address count : Nat) :
    memory.resolve address count = if address + count ≤ memory.words.size then .ok address
      else .error (.invalidGlobal address) := by
  unfold resolve size
  rw [Int.toNat_natCast]
  split
  · rw [if_neg (by omega)]
  · rw [if_pos (by omega)]

theorem Memory.read_eq (memory : Memory) (address : Int) :
    memory.read address = (memory.slice address 1).map (·.headD 0) := by
  simp only [slice, read]
  cases hr : memory.resolve address 1 with
  | error e => rfl
  | ok i =>
    obtain ⟨-, -, inside⟩ := resolve_ok hr
    have first : memory.words[i]? = some memory.words[i] := Array.getElem?_eq_getElem (by omega)
    simp only [Except.map, Except.ok.injEq, Array.getD_eq_getD_getElem?, first, Option.getD_some,
      List.headD_eq_head?_getD, List.head?_eq_getElem?, Array.getElem?_toList,
      Array.getElem?_extract]
    rw [if_pos (by omega), Nat.add_zero, first]
    rfl

theorem Memory.slice_ok {memory : Memory} {address count : Nat}
    (inside : address + count ≤ memory.words.size) :
    memory.slice address count = .ok (memory.words.extract address (address + count)).toList := by
  rw [slice, resolve_natCast, if_pos inside]
  rfl

theorem Memory.slice_inside {memory : Memory} {address : Int} {count : Nat} {ws : List Word}
    (h : memory.slice address count = .ok ws) :
    0 ≤ address ∧ address + count ≤ memory.words.size := by
  obtain ⟨i, hr, -⟩ := ok_of_map h
  obtain ⟨low, rfl, high⟩ := resolve_ok hr
  exact ⟨low, by omega⟩

theorem Memory.slice_of_words {memory : Memory} {address : Nat} {ws : List Word}
    (inside : address + ws.length ≤ memory.words.size)
    (same : ∀ j < ws.length, memory.words[address + j]? = ws[j]?) :
    memory.slice address ws.length = .ok ws := by
  rw [slice_ok inside, Except.ok.injEq]
  apply List.ext_getElem?
  intro j
  rw [Array.getElem?_toList, Array.getElem?_extract]
  split
  · exact same j (by omega)
  · rw [List.getElem?_eq_none (by omega)]

theorem Memory.resolve_congr {before after : Memory} (size : after.words.size = before.words.size)
    (address : Int) (count : Nat) : after.resolve address count = before.resolve address count := by
  unfold resolve Memory.size
  rw [size]

/-- A slice depends on its own words. -/
theorem Memory.slice_congr {before after : Memory} {address : Int} {count : Nat}
    (size : after.words.size = before.words.size)
    (same : ∀ w : Nat, address ≤ w → w < address + count → after.words[w]? = before.words[w]?) :
    after.slice address count = before.slice address count := by
  rw [slice, slice, resolve_congr size]
  cases hr : before.resolve address count with
  | error e => rfl
  | ok i =>
    obtain ⟨positive, rfl, inside⟩ := resolve_ok hr
    refine congrArg Except.ok (congrArg Array.toList (Array.ext_getElem? ?_))
    intro j
    rw [Array.getElem?_extract, Array.getElem?_extract, size]
    split
    · exact same _ (by omega) (by omega)
    · rfl

theorem Memory.read_of_slice {memory : Memory} {address : Int} {ws : List Word}
    (h : memory.slice address 1 = .ok ws) : memory.read address = .ok (ws.headD 0) := by
  rw [read_eq, h]
  rfl

theorem Memory.slice_of_read {memory : Memory} {address : Int} {x : Word}
    (h : memory.read address = .ok x) :
    ∃ ws, memory.slice address 1 = .ok ws ∧ ws.headD 0 = x := by
  rw [read_eq] at h
  exact ok_of_map h

theorem ok_of_bind {ε α β : Type} {x : Except ε α} {f : α → Except ε β} {r : β}
    (h : x >>= f = .ok r) : ∃ a, x = .ok a ∧ f a = .ok r := by
  cases x with
  | error e => cases h
  | ok a => exact ⟨a, rfl, h⟩

theorem error_of_bind {ε α β : Type} {x : Except ε α} {f : α → Except ε β} {e : ε}
    (h : x >>= f = .error e) : x = .error e ∨ ∃ a, x = .ok a ∧ f a = .error e := by
  cases x with
  | error e' =>
    cases h
    exact .inl rfl
  | ok a => exact .inr ⟨a, rfl, h⟩

theorem ok_of_toOption {ε α : Type} {x : Except ε α} {a : α} (h : x.toOption = some a) :
    x = .ok a := by
  cases x with
  | error e => cases h
  | ok b => exact congrArg Except.ok (Option.some.inj h)

/-- What a machine is right after it is loaded. -/
theorem Machine.load_ok {image : Text.Bytes} {capacity heapBytes : Nat} {settings : Settings}
    {v : Machine} (h : load image capacity heapBytes settings = .ok v) :
    (Image.load image capacity heapBytes = .ok v.program ∧
      (settings.boundsCheck = true → Validation.check v.program = .ok ())) ∧
    initialMemory v.program = .ok v.store.memory ∧
    v.settings = settings ∧ v.control = idle settings ∧ v.store.strings.runs = 0 := by
  obtain ⟨program, read, h⟩ := ok_of_bind h
  obtain ⟨memory, initial, h⟩ := ok_of_bind h
  cases h
  refine ⟨?_, initial, rfl, rfl, rfl⟩
  obtain ⟨m, loaded, h⟩ := ok_of_bind read
  split at h
  · split at h
    · rename_i sound
      cases h
      exact ⟨loaded, fun _ => sound⟩
    · cases h
  · rename_i unchecked
    cases h
    exact ⟨loaded, fun checked => absurd checked unchecked⟩

namespace StringArena

@[simp] theorem runs_push (a : StringArena) (bytes : Text.Bytes) : (a.push bytes).2.runs = a.runs := by
  simp only [push]
  cases a.free <;> rfl

theorem runs_concat {a a' : StringArena} {r s joined : StringRef}
    (h : a.concat r s = .ok (joined, a')) : a'.runs = a.runs := by
  simp only [concat] at h
  split at h
  · cases h
  · cases h
  · rename_i x y hx hy
    obtain ⟨-, rfl⟩ := Prod.ext_iff.mp (Except.ok.inj h)
    exact runs_push a _

end StringArena

namespace Plan
variable {α β : Type}

@[simp] theorem pure_eq (a : α) : (pure a : Plan α) = done a := rfl
@[simp] theorem done_bind (a : α) (f : α → Plan β) : done a >>= f = f a := rfl
@[simp] theorem fail_bind (e : Fault) (f : α → Plan β) : fail e >>= f = fail e := rfl
@[simp] theorem read_bind (place : Place) (count : Nat) (k : List Word → Plan α) (f : α → Plan β) :
    read place count k >>= f = read place count fun ws => k ws >>= f := rfl
@[simp] theorem write_bind (place : Place) (words : List Word) (k : Plan α) (f : α → Plan β) :
    write place words k >>= f = write place words (k >>= f) := rfl
@[simp] theorem observe_bind (g : StringArena → Except Fault Bool) (k : Bool → Plan α)
    (f : α → Plan β) : observe g k >>= f = observe g fun answer => k answer >>= f := rfl
@[simp] theorem concat_bind (r s : StringRef) (k : StringRef → Plan α) (f : α → Plan β) :
    concat r s k >>= f = concat r s fun joined => k joined >>= f := rfl
@[simp] theorem lift_eq (x : Except Fault α) : (liftM x : Plan α) = ofExcept x := rfl

theorem run_alike (s : Statement) (p : Plan α) (st : Store) : st.Alike (p.run s st).2 := by
  induction p generalizing st with
  | done a => exact .refl st
  | fail e => exact .refl st
  | read place count k ih =>
    simp only [run]
    split
    · exact .refl st
    · exact ih _ st
  | write place words k ih =>
    obtain ⟨memory, strings⟩ := st
    simp only [run]
    split
    · exact .refl _
    · refine .trans ?_ (ih _)
      exact ⟨Memory.size_setWords .., rfl⟩
  | observe f k ih =>
    simp only [run]
    split
    · exact .refl st
    · exact ih _ st
  | concat r t k ih =>
    obtain ⟨memory, strings⟩ := st
    simp only [run]
    split
    · exact .refl _
    · rename_i joined strings' hc
      refine .trans ?_ (ih joined _)
      exact ⟨rfl, StringArena.runs_concat hc⟩

end Plan
end GameBytecode
