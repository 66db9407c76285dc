import GameBytecode.Module

/-!
Whose body a statement is in. It is the function that starts nearest before the statement, and of
several that start at one place the last. The statements from a start to the next one are those of the
functions that start there.
-/
namespace GameBytecode

theorem FunctionRecord.firstStatement?_pos {f : FunctionRecord} {entry : Nat}
    (h : f.firstStatement? = some entry) : 0 < entry := by
  unfold firstStatement? at h
  split at h
  · rename_i positive
    cases h
    have positive := Int32.lt_iff_toInt_lt.mp positive
    rw [Int32.toInt_zero] at positive
    omega
  · cases h

namespace Module
variable {m : Module} {number index start : Nat}

def firstOf? (m : Module) (number : Nat) : Option Nat := (m.function? number).bind (·.firstStatement?)

theorem lt_size_of_firstOf? {entry : Nat} (h : m.firstOf? number = some entry) :
    number < m.functions.size := by
  obtain ⟨f, found, -⟩ := Option.bind_eq_some_iff.mp h
  exact (Array.getElem?_eq_some_iff.mp found).1

theorem firstOf?_pos {entry : Nat} (h : m.firstOf? number = some entry) : 0 < entry := by
  obtain ⟨f, -, first⟩ := Option.bind_eq_some_iff.mp h
  exact f.firstStatement?_pos first

/-- The last of the functions that start nearest before a statement, with its start. -/
structure Nearest (m : Module) (index number entry : Nat) : Prop where
  starts : m.firstOf? number = some entry
  before : entry ≤ index
  nearest : ∀ other start, m.firstOf? other = some start → start ≤ index →
    start < entry ∨ start = entry ∧ other ≤ number

/-- The nearer of a function with its first statement and the nearest found before. -/
def nearer (m : Module) (index : Nat) (best : Option (Nat × Nat)) (number : Nat) :
    Option (Nat × Nat) :=
  match m.firstOf? number with
  | some entry =>
    if index < entry then best
    else match best with
      | some (_, other) => if entry < other then best else some (number, entry)
      | none => some (number, entry)
  | none => best

theorem functionAt?_eq (m : Module) (index : Nat) :
    m.functionAt? index = ((List.range m.functions.size).foldl (m.nearer index) none).map (·.1) := rfl

theorem nearer_cases (m : Module) (index : Nat) (best : Option (Nat × Nat)) (number : Nat) :
    (m.nearer index best number = best ∧ ∀ entry, m.firstOf? number = some entry → entry ≤ index →
      ∃ other start, best = some (other, start) ∧ entry < start) ∨
    ∃ entry, m.firstOf? number = some entry ∧ entry ≤ index ∧
      m.nearer index best number = some (number, entry) ∧
      ∀ other start, best = some (other, start) → start ≤ entry := by
  unfold nearer
  cases starts : m.firstOf? number with
  | none => exact .inl ⟨rfl, nofun⟩
  | some entry =>
    dsimp only
    split
    · rename_i behind
      refine .inl ⟨rfl, ?_⟩
      rintro _ ⟨⟩ reached
      exact absurd behind (Nat.not_lt.mpr reached)
    · rename_i reached
      have reached := Nat.not_lt.mp reached
      cases best with
      | none => exact .inr ⟨entry, rfl, reached, rfl, nofun⟩
      | some best =>
        dsimp only
        split
        · rename_i farther
          refine .inl ⟨rfl, ?_⟩
          rintro _ ⟨⟩ -
          exact ⟨best.1, best.2, rfl, farther⟩
        · rename_i nearer
          refine .inr ⟨entry, rfl, reached, rfl, ?_⟩
          rintro _ _ ⟨⟩
          exact Nat.not_lt.mp nearer

/-- What has been found among the first functions is one of them, and none of the others is nearer. -/
structure NearestAmong (m : Module) (index count : Nat) (best : Option (Nat × Nat)) : Prop where
  found : ∀ number entry, best = some (number, entry) →
    number < count ∧ m.firstOf? number = some entry ∧ entry ≤ index
  nearest : ∀ other start, other < count → m.firstOf? other = some start → start ≤ index →
    ∃ number entry, best = some (number, entry) ∧
      (start < entry ∨ start = entry ∧ other ≤ number)

theorem NearestAmong.nearer {count : Nat} {best : Option (Nat × Nat)}
    (h : m.NearestAmong index count best) :
    m.NearestAmong index (count + 1) (m.nearer index best count) := by
  rcases m.nearer_cases index best count with ⟨kept, farther⟩ | ⟨entry, starts, reached, new, low⟩
  · rw [kept]
    refine ⟨fun number entry hb => ?_, fun other start lt starts before => ?_⟩
    · obtain ⟨lt, rest⟩ := h.found number entry hb
      exact ⟨Nat.lt_succ_of_lt lt, rest⟩
    · rcases Nat.lt_succ_iff_lt_or_eq.mp lt with earlier | rfl
      · exact h.nearest other start earlier starts before
      · obtain ⟨number, entry, hb, lt⟩ := farther start starts before
        exact ⟨number, entry, hb, .inl lt⟩
  · rw [new]
    refine ⟨fun number entry' hb => ?_, fun other start lt starts' before => ⟨count, entry, rfl, ?_⟩⟩
    · cases hb
      exact ⟨Nat.lt_succ_self _, starts, reached⟩
    · rcases Nat.lt_succ_iff_lt_or_eq.mp lt with earlier | rfl
      · obtain ⟨number, entry', hb, nearest⟩ := h.nearest other start earlier starts' before
        have := low number entry' hb
        omega
      · cases starts.symm.trans starts'
        exact .inr ⟨rfl, Nat.le_refl _⟩

theorem nearestAmong (m : Module) (index count : Nat) :
    m.NearestAmong index count ((List.range count).foldl (m.nearer index) none) := by
  induction count with
  | zero => exact ⟨nofun, fun other start none => absurd none (Nat.not_lt_zero _)⟩
  | succ count ih =>
    rw [List.range_succ, List.foldl_append, List.foldl_cons, List.foldl_nil]
    exact ih.nearer

/-- Looking up the function at a statement finds the last of those that start nearest before it. -/
theorem functionAt?_eq_some_iff :
    m.functionAt? index = some number ↔ ∃ entry, m.Nearest index number entry := by
  have among := m.nearestAmong index m.functions.size
  rw [functionAt?_eq, Option.map_eq_some_iff]
  constructor
  · rintro ⟨⟨number, entry⟩, best, rfl⟩
    obtain ⟨-, starts, before⟩ := among.found number entry best
    refine ⟨entry, starts, before, fun other start starts' before' => ?_⟩
    obtain ⟨_, _, best', nearest⟩ :=
      among.nearest other start (lt_size_of_firstOf? starts') starts' before'
    cases best.symm.trans best'
    exact nearest
  · rintro ⟨entry, starts, before, nearest⟩
    obtain ⟨other, start, best, low⟩ :=
      among.nearest number entry (lt_size_of_firstOf? starts) starts before
    obtain ⟨-, starts', before'⟩ := among.found other start best
    have high := nearest other start starts' before'
    exact ⟨(other, start), best, by dsimp only; omega⟩

theorem exists_functionAt? {other : Nat} (starts : m.firstOf? other = some start)
    (before : start ≤ index) : ∃ number, m.functionAt? index = some number := by
  obtain ⟨number, entry, best, -⟩ := (m.nearestAmong index m.functions.size).nearest other start
    (lt_size_of_firstOf? starts) starts before
  exact ⟨number, by rw [functionAt?_eq, best]; rfl⟩

/-- The starts of functions behind a statement. -/
def laterEntries (m : Module) (start : Nat) : List Nat :=
  m.functions.toList.filterMap fun f => f.firstStatement?.filter (start < ·)

/-- Where the statements that follow a start end: at the next start, or with the statements. -/
def bodyEnd (m : Module) (start : Nat) : Nat :=
  min ((m.laterEntries start).min?.getD m.statements.size) m.statements.size

theorem functionRange_of_firstOf? (starts : m.firstOf? number = some start) :
    m.functionRange number = (start, m.bodyEnd start) := by
  have first : (m.function? number).bind (·.firstStatement?) = some start := starts
  rw [functionRange, first]
  rfl

theorem mem_laterEntries {entry : Nat} :
    entry ∈ m.laterEntries start ↔ start < entry ∧ ∃ number, m.firstOf? number = some entry := by
  simp only [laterEntries, List.mem_filterMap, Option.filter_eq_some_iff, decide_eq_true_eq]
  constructor
  · rintro ⟨f, mem, first, behind⟩
    obtain ⟨number, found⟩ := List.getElem?_of_mem mem
    rw [Array.getElem?_toList] at found
    exact ⟨behind, number, Option.bind_eq_some_iff.mpr ⟨f, found, first⟩⟩
  · rintro ⟨behind, number, starts⟩
    obtain ⟨f, found, first⟩ := Option.bind_eq_some_iff.mp starts
    exact ⟨f, Array.mem_toList_iff.mpr (Array.mem_of_getElem? found), first, behind⟩

theorem bodyEnd_le (m : Module) (start : Nat) : m.bodyEnd start ≤ m.statements.size :=
  Nat.min_le_right ..

theorem lt_bodyEnd_iff : index < m.bodyEnd start ↔ index < m.statements.size ∧
    ∀ number entry, m.firstOf? number = some entry → start < entry → index < entry := by
  rw [bodyEnd, Nat.lt_min, and_comm]
  refine and_congr_right fun inside => ?_
  cases least : (m.laterEntries start).min? with
  | none =>
    rw [List.min?_eq_none_iff] at least
    refine ⟨fun _ number entry starts behind => ?_, fun _ => inside⟩
    have mem : entry ∈ m.laterEntries start := mem_laterEntries.mpr ⟨behind, number, starts⟩
    rw [least] at mem
    cases mem
  | some next =>
    obtain ⟨mem, lowest⟩ := List.min?_eq_some_iff.mp least
    obtain ⟨behind, number, starts⟩ := mem_laterEntries.mp mem
    constructor
    · intro before number entry starts behind
      exact Nat.lt_of_lt_of_le before (lowest entry (mem_laterEntries.mpr ⟨behind, number, starts⟩))
    · exact fun before => before number next starts behind

theorem lt_bodyEnd (inside : start < m.statements.size) : start < m.bodyEnd start :=
  lt_bodyEnd_iff.mpr ⟨inside, fun _ _ _ behind => behind⟩

theorem bodyEnd_cases (m : Module) (start : Nat) : m.bodyEnd start = m.statements.size ∨
    ∃ number, m.firstOf? number = some (m.bodyEnd start) := by
  rw [bodyEnd]
  cases least : (m.laterEntries start).min? with
  | none => exact .inl (Nat.min_self _)
  | some next =>
    rcases Nat.le_total m.statements.size next with past | within
    · exact .inl (Nat.min_eq_right past)
    · obtain ⟨-, number, starts⟩ := mem_laterEntries.mp (List.min?_eq_some_iff.mp least).1
      rw [Option.getD_some, Nat.min_eq_left within]
      exact .inr ⟨number, starts⟩

/-- The statement is in the range of the function. -/
def Spans (m : Module) (number index : Nat) : Prop :=
  (m.functionRange number).1 ≤ index ∧ index < (m.functionRange number).2

theorem spans_iff : m.Spans number index ↔
    ∃ entry, m.firstOf? number = some entry ∧ entry ≤ index ∧ index < m.bodyEnd entry := by
  unfold Spans
  cases starts : m.firstOf? number with
  | none =>
    have none : (m.function? number).bind (·.firstStatement?) = none := starts
    rw [functionRange, none]
    constructor
    · exact fun h => absurd h.2 (Nat.not_lt_zero _)
    · rintro ⟨entry, h, -⟩
      cases h
  | some entry =>
    rw [functionRange_of_firstOf? starts]
    constructor
    · exact fun h => ⟨entry, rfl, h⟩
    · rintro ⟨_, ⟨⟩, h⟩
      exact h

theorem spans_of_functionAt? (inside : index < m.statements.size)
    (h : m.functionAt? index = some number) : m.Spans number index := by
  obtain ⟨entry, nearest⟩ := functionAt?_eq_some_iff.mp h
  refine spans_iff.mpr ⟨entry, nearest.starts, nearest.before, lt_bodyEnd_iff.mpr ⟨inside, ?_⟩⟩
  intro other start starts behind
  have := nearest.nearest other start starts
  omega

/-- A function whose range a statement is in starts where the function at the statement does. -/
theorem Spans.firstOf?_eq (h : m.Spans number index) :
    ∃ owner entry, m.functionAt? index = some owner ∧ m.firstOf? owner = some entry ∧
      m.firstOf? number = some entry := by
  obtain ⟨start, starts, before, within⟩ := spans_iff.mp h
  obtain ⟨owner, found⟩ := exists_functionAt? starts before
  obtain ⟨entry, nearest⟩ := functionAt?_eq_some_iff.mp found
  refine ⟨owner, entry, found, nearest.starts, ?_⟩
  have next := (lt_bodyEnd_iff.mp within).2 owner entry nearest.starts
  have low := nearest.nearest number start starts before
  have reached := nearest.before
  rw [starts]
  congr 1
  omega

end Module
end GameBytecode
