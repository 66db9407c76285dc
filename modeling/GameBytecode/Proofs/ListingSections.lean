import GameBytecode.Listing
import GameBytecode.Proofs.StatementOwner

/-!
How the listing of a module is made up. Before each statement at which functions start stands a header
with the name of the function at that statement. The whole listing is the statements before the first
start and then the listings of the functions that the headers name.
-/
namespace GameBytecode

theorem List.find?_reverse_range {p : Nat → Bool} {count number : Nat} :
    (List.range count).reverse.find? p = some number ↔
      number < count ∧ p number ∧ ∀ other, number < other → other < count → p other = false := by
  induction count with
  | zero =>
    constructor
    · intro h
      cases h
    · exact fun h => absurd h.1 (Nat.not_lt_zero _)
  | succ count ih =>
    rw [List.range_succ, List.reverse_append, List.reverse_singleton, List.singleton_append,
      List.find?_cons]
    cases last : p count with
    | true =>
      constructor
      · rintro ⟨⟩
        exact ⟨Nat.lt_succ_self _, last, fun other lt le => by omega⟩
      · rintro ⟨lt, -, later⟩
        by_cases here : number = count
        · rw [here]
        · have := later count (by omega) (Nat.lt_succ_self _)
          rw [last] at this
          cases this
    | false =>
      dsimp only
      rw [ih]
      constructor
      · rintro ⟨lt, holds, later⟩
        refine ⟨Nat.lt_succ_of_lt lt, holds, fun other above le => ?_⟩
        rcases Nat.lt_succ_iff_lt_or_eq.mp le with earlier | rfl
        · exact later other above earlier
        · exact last
      · rintro ⟨lt, holds, later⟩
        refine ⟨?_, holds, fun other above earlier => later other above (Nat.lt_succ_of_lt earlier)⟩
        rcases Nat.lt_succ_iff_lt_or_eq.mp lt with earlier | rfl
        · exact earlier
        · rw [last] at holds
          cases holds

namespace Module
variable {m : Module} {number index start : Nat}

/-- The function at a statement, if functions start there. -/
def begun? (m : Module) (index : Nat) : Option Nat :=
  (m.functionAt? index).filter fun number => m.firstOf? number = some index

/-- Whether a function starts at a statement. -/
def isEntry (m : Module) (index : Nat) : Bool := m.functions.any (·.firstStatement? = some index)

/-- The functions whose names head the sections of the listing, in the order of their starts. -/
def headed (m : Module) : List Nat := (List.range m.statements.size).filterMap m.begun?

theorem begun?_eq_some_iff :
    m.begun? index = some number ↔ m.functionAt? index = some number ∧ m.firstOf? number = some index := by
  rw [begun?, Option.filter_eq_some_iff, decide_eq_true_eq]

theorem isEntry_iff : m.isEntry index ↔ ∃ number, m.firstOf? number = some index := by
  rw [isEntry, Array.any_eq_true]
  constructor
  · rintro ⟨number, inside, first⟩
    refine ⟨number, ?_⟩
    rw [firstOf?, function?, Array.getElem?_eq_getElem inside]
    exact of_decide_eq_true first
  · rintro ⟨number, starts⟩
    obtain ⟨f, found, first⟩ := Option.bind_eq_some_iff.mp starts
    obtain ⟨inside, rfl⟩ := Array.getElem?_eq_some_iff.mp found
    exact ⟨number, inside, decide_eq_true first⟩

theorem begun?_of_firstOf? (starts : m.firstOf? number = some index) :
    ∃ owner, m.begun? index = some owner := by
  obtain ⟨owner, found⟩ := exists_functionAt? starts (Nat.le_refl _)
  obtain ⟨entry, nearest⟩ := functionAt?_eq_some_iff.mp found
  have low := nearest.nearest number index starts (Nat.le_refl _)
  have before := nearest.before
  obtain rfl : entry = index := by omega
  exact ⟨owner, begun?_eq_some_iff.mpr ⟨found, nearest.starts⟩⟩

theorem begun?_eq_none (no : ∀ number, m.firstOf? number ≠ some index) : m.begun? index = none := by
  cases found : m.begun? index with
  | none => rfl
  | some number => exact absurd (begun?_eq_some_iff.mp found).2 (no number)

theorem begun?_within (behind : start < index) (within : index < m.bodyEnd start) :
    m.begun? index = none :=
  begun?_eq_none fun number starts =>
    absurd ((lt_bodyEnd_iff.mp within).2 number index starts behind) (Nat.lt_irrefl _)

/-- The functions that head the listing from a statement on. -/
def headedFrom (m : Module) (start : Nat) : List Nat :=
  (List.range' start (m.statements.size - start)).filterMap m.begun?

theorem headed_eq (m : Module) : m.headed = m.headedFrom 0 := by
  rw [headed, headedFrom, List.range_eq_range']
  rfl

theorem headedFrom_of_begun? {owner : Nat} (inside : start < m.statements.size)
    (begun : m.begun? start = some owner) : m.headedFrom start = owner :: m.headedFrom (start + 1) := by
  rw [headedFrom, show m.statements.size - start = m.statements.size - (start + 1) + 1 by omega,
    List.range'_succ, List.filterMap_cons_some begun]
  rfl

theorem headedFrom_of_none (begun : m.begun? start = none) :
    m.headedFrom start = m.headedFrom (start + 1) := by
  rcases Nat.lt_or_ge start m.statements.size with inside | past
  · rw [headedFrom, show m.statements.size - start = m.statements.size - (start + 1) + 1 by omega,
      List.range'_succ, List.filterMap_cons_none begun]
    rfl
  · rw [headedFrom, headedFrom, Nat.sub_eq_zero_of_le past,
      Nat.sub_eq_zero_of_le (Nat.le_succ_of_le past)]
    rfl

theorem headedFrom_bodyEnd (inside : start < m.statements.size) :
    m.headedFrom (start + 1) = m.headedFrom (m.bodyEnd start) := by
  have behind := lt_bodyEnd inside
  have within := m.bodyEnd_le start
  have none : (List.range' (start + 1) (m.bodyEnd start - (start + 1))).filterMap m.begun? = [] := by
    rw [List.filterMap_eq_nil_iff]
    intro index mem
    rw [List.mem_range'_1] at mem
    exact begun?_within (show start < index by omega) (by omega)
  rw [headedFrom, show m.statements.size - (start + 1) = (m.bodyEnd start - (start + 1)) +
    (m.statements.size - m.bodyEnd start) by omega, ← List.range'_append_1, List.filterMap_append,
    none, show start + 1 + (m.bodyEnd start - (start + 1)) = m.bodyEnd start by omega]
  rfl

/-- The functions that head the listing start, in ascending order, at all statements at which any
function does. -/
theorem entries_headed (m : Module) :
    m.headed.map m.firstOf? = ((List.range m.statements.size).filter m.isEntry).map some := by
  rw [headed]
  induction List.range m.statements.size with
  | nil => rfl
  | cons index rest ih =>
    cases begun : m.begun? index with
    | some owner =>
      have starts := (begun?_eq_some_iff.mp begun).2
      rw [List.filterMap_cons_some begun, List.filter_cons_of_pos (isEntry_iff.mpr ⟨owner, starts⟩),
        List.map_cons, List.map_cons, ih, starts]
    | none =>
      have no : ¬ m.isEntry index := by
        intro starts
        obtain ⟨number, starts⟩ := isEntry_iff.mp starts
        obtain ⟨owner, found⟩ := begun?_of_firstOf? starts
        cases begun.symm.trans found
      rw [List.filterMap_cons_none begun, List.filter_cons_of_neg no, ih]

end Module

namespace Listing
variable {m : Module} {memory : Memory} {number index start stop : Nat}

def header (m : Module) (number : Nat) : String :=
  m.functionName number ++ " (" ++ m.functionFile number ++ "):"

/-- The lines of one statement, with the header before it where there is one. -/
def lines (m : Module) (memory : Memory) (index : Nat) : List String :=
  ((m.begun? index).map (header m)).toList ++ [line m memory index]

theorem headerAt?_eq (m : Module) (index : Nat) : headerAt? m index = m.begun? index := by
  refine Option.ext fun number => ?_
  rw [headerAt?, List.find?_reverse_range, Module.begun?_eq_some_iff, Module.functionAt?_eq_some_iff]
  simp only [decide_eq_true_eq, decide_eq_false_iff_not]
  constructor
  · rintro ⟨-, starts, last⟩
    refine ⟨⟨index, starts, Nat.le_refl _, fun other start starts' before => ?_⟩, starts⟩
    by_cases here : start = index
    · subst here
      refine .inr ⟨rfl, Nat.not_lt.mp fun above => ?_⟩
      exact last other above (Module.lt_size_of_firstOf? starts') starts'
    · exact .inl (by omega)
  · rintro ⟨⟨entry, nearest⟩, starts⟩
    cases nearest.starts.symm.trans starts
    refine ⟨Module.lt_size_of_firstOf? starts, starts, fun other above _ starts' => ?_⟩
    have := nearest.nearest other index starts' (Nat.le_refl _)
    omega

theorem range_eq (m : Module) (memory : Memory) (start stop : Nat) :
    range m memory start stop = (List.range' start (stop - start)).flatMap (lines m memory) := by
  rw [range, List.range'_eq_map_range]
  refine congrArg (List.flatMap · _) (funext fun index => ?_)
  rw [headerAt?_eq, lines]
  cases m.begun? index <;> rfl

theorem range_append {middle : Nat} (le : start ≤ middle) (le' : middle ≤ stop) :
    range m memory start stop = range m memory start middle ++ range m memory middle stop := by
  rw [range_eq, range_eq, range_eq, ← List.flatMap_append,
    show stop - start = (middle - start) + (stop - middle) by omega, ← List.range'_append_1,
    show start + (middle - start) = middle by omega]

theorem range_plain (plain : ∀ index, start ≤ index → index < stop → m.begun? index = none) :
    range m memory start stop = (List.range' start (stop - start)).map (line m memory) := by
  rw [range_eq, List.map_eq_flatMap, List.flatMap_def, List.flatMap_def]
  refine congrArg List.flatten (List.map_congr_left fun index mem => ?_)
  rw [List.mem_range'_1] at mem
  rw [lines, plain index (by omega) (by omega)]
  rfl

theorem range_self (m : Module) (memory : Memory) (index : Nat) :
    range m memory index (index + 1) = lines m memory index := by
  rw [range_eq, Nat.add_sub_cancel_left, List.range'_one, List.flatMap_singleton]

theorem function_of_begun? (begun : m.begun? start = some number) :
    function m memory number = range m memory start (m.bodyEnd start) := by
  rw [function, Module.functionRange_of_firstOf? (Module.begun?_eq_some_iff.mp begun).2]

/-- The listing of a function that the listing of the module names is a header and the statements of
the function. -/
theorem function_headed (inside : start < m.statements.size) (begun : m.begun? start = some number) :
    function m memory number = header m number ::
      (List.range' start (m.bodyEnd start - start)).map (line m memory) := by
  have behind := Module.lt_bodyEnd inside
  rw [function_of_begun? begun, range_append (Nat.le_succ start) behind, range_self, lines, begun,
    range_plain fun index after within => Module.begun?_within after within,
    show m.bodyEnd start - start = m.bodyEnd start - (start + 1) + 1 by omega, List.range'_succ]
  rfl

/-- From any statement on the listing is the statements up to the next start and then the listings of
the functions that are named. -/
theorem range_sections (m : Module) (memory : Memory) (start : Nat) :
    range m memory start m.statements.size = range m memory start (m.bodyEnd start) ++
      (m.headedFrom (start + 1)).flatMap (function m memory) := by
  induction left : m.statements.size - start using Nat.strongRecOn generalizing start with
  | ind left ih =>
  by_cases inside : start < m.statements.size
  · have behind := Module.lt_bodyEnd inside
    have within := m.bodyEnd_le start
    rw [range_append (Nat.le_of_lt behind) within, Module.headedFrom_bodyEnd inside]
    congr 1
    rcases m.bodyEnd_cases start with ended | ⟨other, starts⟩
    · rw [ended, range_eq, Module.headedFrom, Nat.sub_self]
      rfl
    · by_cases further : m.bodyEnd start < m.statements.size
      · obtain ⟨owner, begun⟩ := Module.begun?_of_firstOf? starts
        rw [Module.headedFrom_of_begun? further begun, List.flatMap_cons, function_of_begun? begun]
        exact ih _ (by omega) (m.bodyEnd start) rfl
      · rw [range_eq, Module.headedFrom, Nat.sub_eq_zero_of_le (Nat.not_lt.mp further)]
        rfl
  · have past : m.bodyEnd start ≤ start := Nat.le_trans (m.bodyEnd_le start) (Nat.not_lt.mp inside)
    rw [range_eq, range_eq, Module.headedFrom, Nat.sub_eq_zero_of_le (Nat.not_lt.mp inside),
      Nat.sub_eq_zero_of_le past, Nat.sub_eq_zero_of_le (Nat.le_succ_of_le (Nat.not_lt.mp inside))]
    rfl

/-- Looking up the function at a statement, the ranges of functions and the headers of listings agree.
A statement is in the range of the function at it, and of no function that starts elsewhere. In every
listing a header stands before each statement at which functions start, and names the function at it.
The whole listing is the statements before the first start, and then for each statement at which
functions start, in order, the listing of the one that its header names. -/
theorem matches_functions (m : Module) (memory : Memory) :
    (∀ index < m.statements.size, ∀ number, m.functionAt? index = some number → m.Spans number index) ∧
    (∀ index number, m.Spans number index → ∃ owner entry, m.functionAt? index = some owner ∧
      m.firstOf? owner = some entry ∧ m.firstOf? number = some entry) ∧
    (∀ start stop,
      range m memory start stop = (List.range' start (stop - start)).flatMap (lines m memory)) ∧
    (∀ index, index < m.bodyEnd 0 ↔ index < m.statements.size ∧
      ∀ number entry, m.firstOf? number = some entry → index < entry) ∧
    m.headed.map m.firstOf? = ((List.range m.statements.size).filter m.isEntry).map some ∧
    (∀ number ∈ m.headed, ∃ entry, m.firstOf? number = some entry ∧ m.functionAt? entry = some number ∧
      function m memory number = header m number ::
        (List.range' entry (m.bodyEnd entry - entry)).map (line m memory)) ∧
    all m memory = (List.range (m.bodyEnd 0)).map (line m memory) ++
      m.headed.flatMap (function m memory) := by
  have outside : m.begun? 0 = none :=
    Module.begun?_eq_none fun number starts => absurd (Module.firstOf?_pos starts) (Nat.lt_irrefl 0)
  refine ⟨fun index inside number found => Module.spans_of_functionAt? inside found,
    fun index number spans => spans.firstOf?_eq, range_eq m memory, fun index => ?_,
    m.entries_headed, ?_, ?_⟩
  · rw [Module.lt_bodyEnd_iff]
    refine and_congr_right fun _ => ⟨fun h number entry starts => ?_, fun h number entry starts _ => ?_⟩
    · exact h number entry starts (Module.firstOf?_pos starts)
    · exact h number entry starts
  · intro number mem
    obtain ⟨entry, inside, begun⟩ := List.mem_filterMap.mp mem
    obtain ⟨found, starts⟩ := Module.begun?_eq_some_iff.mp begun
    exact ⟨entry, starts, found, function_headed (List.mem_range.mp inside) begun⟩
  · have plain : range m memory 0 (m.bodyEnd 0) = (List.range (m.bodyEnd 0)).map (line m memory) := by
      rw [range_plain, List.range_eq_range']
      · rfl
      · intro index _ within
        rcases Nat.eq_zero_or_pos index with rfl | behind
        · exact outside
        · exact Module.begun?_within behind within
    have headed : m.headed = m.headedFrom 1 :=
      m.headed_eq.trans (Module.headedFrom_of_none outside)
    rw [all, range_sections, plain, headed]

end Listing
end GameBytecode
