import GameBytecode.Module

/-!
Tables of names and addresses. A table is built entry by entry and keeps the first place of a key, so
that what is found under a key is the first record that has it.
-/
namespace GameBytecode

namespace Index
variable {κ : Type} [DecidableEq κ] {key : κ}

theorem lookup_enter (index : Index κ) (entry : κ × Nat) :
    (index.enter entry).lookup key = (index.lookup key).or ([entry].lookup key) := by
  obtain ⟨k, place⟩ := entry
  by_cases same : key = k
  · subst same
    unfold enter
    cases there : index.lookup key with
    | some other => rw [Option.isSome_some, if_pos rfl, there, Option.some_or]
    | none => rw [Option.isSome_none, if_neg Bool.false_ne_true, Option.none_or, List.lookup_cons_self,
        List.lookup_cons_self]
  · have other : (key == k) = false := beq_false_of_ne same
    unfold enter
    split
    · simp only [List.lookup_cons, other, List.lookup_nil, Option.or_none]
    · simp only [List.lookup_cons, other, List.lookup_nil, Option.or_none]

/-- A table finds what the list of all entries finds, where the first one counts. -/
theorem lookup_ofEntries (entries : List (κ × Nat)) :
    (ofEntries entries).lookup key = entries.lookup key := by
  suffices onto : ∀ index : Index κ,
      (entries.foldl enter index).lookup key = (index.lookup key).or (entries.lookup key) from onto []
  induction entries with
  | nil => exact fun index => Option.or_none.symm
  | cons entry entries ih =>
    intro index
    rw [List.foldl_cons, ih, lookup_enter, Option.or_assoc, ← List.lookup_append]
    rfl

theorem lookup_zipIdx (keys : List κ) (n : Nat) :
    (keys.zipIdx n).lookup key = (keys.findIdx? (· = key)).map (n + ·) := by
  induction keys generalizing n with
  | nil => rfl
  | cons first keys ih =>
    rw [List.zipIdx_cons, List.lookup_cons, List.findIdx?_cons, ih]
    by_cases same : first = key
    · rw [beq_iff_eq.mpr same.symm, decide_eq_true same]
      rfl
    · rw [beq_false_of_ne (Ne.symm same), decide_eq_false same]
      simp only [Bool.false_eq_true, if_false, Option.map_map, Function.comp_def, Nat.add_right_comm,
        Nat.add_assoc]

theorem lookup_ofNames {name : String} (nonempty : name ≠ "") (names : List String) :
    (ofNames names).lookup name = names.zipIdx.lookup name := by
  rw [ofNames, lookup_ofEntries]
  generalize names.zipIdx = entries
  induction entries with
  | nil => rfl
  | cons entry entries ih =>
    obtain ⟨first, place⟩ := entry
    by_cases blank : first = ""
    · have other : (name == first) = false := beq_false_of_ne fun same => nonempty (same.trans blank)
      rw [List.filter_cons_of_neg (by simp [blank]), ih, List.lookup_cons, other]
    · rw [List.filter_cons_of_pos (by simp [blank]), List.lookup_cons, List.lookup_cons, ih]

theorem lookup_ofNames_empty (names : List String) : (ofNames names).lookup "" = none := by
  rw [ofNames, lookup_ofEntries, List.lookup_eq_none_iff]
  intro entry named
  have nonempty : entry.1 ≠ "" := of_decide_eq_true (List.mem_filter.mp named).2
  exact bne_iff_ne.mpr nonempty.symm

/-- What stands at the place of a key is the first record that has it. -/
theorem bind_lookup_zipIdx {α κ : Type} [DecidableEq κ] (xs : Array α) (key : α → κ) (k : κ) :
    ((xs.toList.map key).zipIdx.lookup k).bind (xs[·]?) = xs.find? fun x => key x = k := by
  rw [lookup_zipIdx, List.findIdx?_map, Array.find?_eq_bind_findIdx?_getElem?,
    ← List.findIdx?_toArray]
  simp only [Nat.zero_add, Option.map_id', Array.toArray_toList]
  rfl

end Index

/-- A condition holds of an element, and of none before it. -/
def FirstAt {α : Type} (xs : Array α) (p : α → Prop) (i : Nat) (x : α) : Prop :=
  xs[i]? = some x ∧ p x ∧ ∀ j < i, ∀ y, xs[j]? = some y → ¬ p y

section first
variable {α : Type} {xs : Array α} {p : α → Prop}

theorem firstAt_iff {i : Nat} {x : α} :
    FirstAt xs p i x ↔ ∃ h : i < xs.size, xs[i] = x ∧ p xs[i] ∧
      ∀ (j : Nat) (hj : j < i), ¬ p xs[j] := by
  constructor
  · rintro ⟨there, holds, before⟩
    obtain ⟨h, rfl⟩ := Array.getElem?_eq_some_iff.mp there
    exact ⟨h, rfl, holds, fun j hj => before j hj _ (Array.getElem?_eq_getElem _)⟩
  · rintro ⟨h, rfl, holds, before⟩
    refine ⟨Array.getElem?_eq_getElem h, holds, fun j hj y there => ?_⟩
    obtain ⟨_, rfl⟩ := Array.getElem?_eq_some_iff.mp there
    exact before j hj

variable [DecidablePred p]

theorem find?_eq_some_iff_firstAt {x : α} :
    xs.find? (fun x => decide (p x)) = some x ↔ ∃ i, FirstAt xs p i x := by
  simp only [Array.find?_eq_some_iff_getElem, firstAt_iff, decide_eq_true_eq, Bool.not_eq_true',
    decide_eq_false_iff_not]
  constructor
  · rintro ⟨holds, i, h, rfl, before⟩
    exact ⟨i, h, rfl, holds, before⟩
  · rintro ⟨i, h, rfl, holds, before⟩
    exact ⟨holds, i, h, rfl, before⟩

theorem findIdx?_eq_some_iff_firstAt {i : Nat} :
    xs.findIdx? (fun x => decide (p x)) = some i ↔ ∃ x, FirstAt xs p i x := by
  simp only [Array.findIdx?_eq_some_iff_getElem, firstAt_iff, decide_eq_true_eq]
  constructor
  · rintro ⟨h, holds, before⟩
    exact ⟨xs[i], h, rfl, holds, before⟩
  · rintro ⟨x, h, rfl, holds, before⟩
    exact ⟨h, holds, before⟩

end first

namespace Module
variable {m : Module} {name : String}

theorem findFunction?_eq (nonempty : name ≠ "") :
    m.findFunction? name = (m.functions.toList.map (m.text ·.name)).zipIdx.lookup name := by
  rw [findFunction?, m.lookups_eq]
  exact Index.lookup_ofNames nonempty _

theorem findField?_of_ne (nonempty : name ≠ "") :
    m.findField? name = m.fieldDefs.find? fun d => m.text d.name = name := by
  have found : m.lookups.fields.lookup name =
      (m.fieldDefs.toList.map (m.text ·.name)).zipIdx.lookup name := by
    rw [m.lookups_eq]
    exact Index.lookup_ofNames nonempty _
  rw [findField?, found, Index.bind_lookup_zipIdx]

theorem findGlobal?_of_ne (nonempty : name ≠ "") :
    m.findGlobal? name = m.globalDefs.find? fun d => m.text d.name = name := by
  have found : m.lookups.globals.lookup name =
      (m.globalDefs.toList.map (m.text ·.name)).zipIdx.lookup name := by
    rw [m.lookups_eq]
    exact Index.lookup_ofNames nonempty _
  rw [findGlobal?, found, Index.bind_lookup_zipIdx]

theorem globalAt?_eq (address : UInt16) :
    m.globalAt? address = m.globalDefs.find? fun d => d.offset = address := by
  have found : m.lookups.addresses.lookup address =
      (m.globalDefs.toList.map (·.offset)).zipIdx.lookup address := by
    rw [m.lookups_eq]
    exact Index.lookup_ofEntries _
  rw [globalAt?, found, Index.bind_lookup_zipIdx]

/-- Every look-up finds the first of those that it could find, and by the empty name nothing. -/
structure FindsFirst (m : Module) : Prop where
  functions : ∀ name ≠ "", ∀ n, m.findFunction? name = some n ↔
    ∃ f, FirstAt m.functions (fun f => m.text f.name = name) n f
  fields : ∀ name ≠ "", ∀ d, m.findField? name = some d ↔
    ∃ i, FirstAt m.fieldDefs (fun d => m.text d.name = name) i d
  globals : ∀ name ≠ "", ∀ d, m.findGlobal? name = some d ↔
    ∃ i, FirstAt m.globalDefs (fun d => m.text d.name = name) i d
  addresses : ∀ address d, m.globalAt? address = some d ↔
    ∃ i, FirstAt m.globalDefs (fun d => d.offset = address) i d
  unnamed : m.findFunction? "" = none ∧ m.findField? "" = none ∧ m.findGlobal? "" = none

theorem findsFirst (m : Module) : m.FindsFirst where
  functions := by
    intro name nonempty n
    rw [findFunction?_eq nonempty, Index.lookup_zipIdx, List.findIdx?_map, ← List.findIdx?_toArray]
    simp only [Nat.zero_add, Option.map_id', Array.toArray_toList]
    exact findIdx?_eq_some_iff_firstAt
  fields := by
    intro name nonempty d
    rw [findField?_of_ne nonempty]
    exact find?_eq_some_iff_firstAt
  globals := by
    intro name nonempty d
    rw [findGlobal?_of_ne nonempty]
    exact find?_eq_some_iff_firstAt
  addresses := by
    intro address d
    rw [globalAt?_eq]
    exact find?_eq_some_iff_firstAt
  unnamed := by
    simp only [findFunction?, findField?, findGlobal?, m.lookups_eq, Lookups.build,
      Index.lookup_ofNames_empty, Option.bind_none, and_self]

end Module
end GameBytecode
