import GameBytecode.Proofs.DeclaredNames

/-!
The words that a builder hands out. While it has fewer than 65536 of them, a call that allocates puts
what it stores behind all other words and answers with the address of that. Addresses have sixteen
bits: with more words they come around, and a global that is added overwrites an earlier one.
-/
namespace GameBytecode

/-- Consecutive words: the address of the first and their number. -/
structure Extent where
  first : Nat
  count : Nat
deriving DecidableEq

namespace Extent
variable {r q : Extent}

def Has (r : Extent) (a : Nat) : Prop := r.first ≤ a ∧ a < r.first + r.count

/-- No word is in both. -/
def Apart (r q : Extent) : Prop := ∀ a, r.Has a → ¬ q.Has a

theorem Apart.of_le (h : r.first + r.count ≤ q.first) : r.Apart q := by
  rintro a ⟨-, before⟩ ⟨behind, -⟩
  omega

end Extent

theorem Memory.setWords_behind (words : Array Word) (ws : List Word) {count : Nat}
    (fits : ws.length ≤ count) :
    setWords (words ++ Array.replicate count 0) words.size ws =
      words ++ (ws ++ List.replicate (count - ws.length) 0).toArray := by
  apply Array.ext_getElem?
  intro a
  rw [getElem?_setWords _ _ _ _ (by rw [Array.size_append, Array.size_replicate]; omega)]
  by_cases old : a < words.size
  · rw [if_neg (by omega), Array.getElem?_append_left old, Array.getElem?_append_left old]
  · have behind : words.size ≤ a := Nat.not_lt.mp old
    rw [Array.getElem?_append_right behind, Array.getElem?_append_right behind]
    by_cases written : a < words.size + ws.length
    · rw [if_pos ⟨behind, written⟩, List.getElem?_toArray, List.getElem?_append_left (by omega)]
    · rw [if_neg (by omega), Array.getElem?_replicate, List.getElem?_toArray,
        List.getElem?_append_right (by omega), List.getElem?_replicate]
      exact if_congr (by omega) rfl rfl

namespace Builder

/-- What a call allocates, as it should be stored. A value of no words is given one. -/
def Operation.contents : Operation → List Word
  | addGlobal _ value => value.words ++ List.replicate (1 - value.words.length) 0
  | reserveWords count => List.replicate count 0
  | _ => []

/-- The address that a call on a builder answers with, if it allocates. -/
def answer? (b : Builder) : Operation → Option UInt16
  | .addGlobal name value => some (b.addGlobal name value).1
  | .reserveWords count => some (b.reserveWords count).1
  | _ => none

/-- The words that a call on a builder hands out, if it allocates. -/
def extent? (b : Builder) (op : Operation) : Option Extent :=
  (b.answer? op).map fun address => ⟨address.toNat, op.contents.length⟩

/-- What has been handed out by calls in order. -/
def handedOut (b : Builder) : List Operation → List Extent
  | [] => []
  | op :: ops => (b.extent? op).toList ++ (b.apply op).handedOut ops

/-- What an allocation should do after other calls: store what it is to store at the address that it
answers, leave all other words as they are, and keep apart from all that was handed out before. -/
structure Sound (ops : List Operation) (op : Operation) (r : Extent) : Prop where
  stored : ∀ i < op.contents.length,
    ((built ops).apply op).globals[r.first + i]? = op.contents[i]?
  kept : ∀ a < (built ops).globals.size,
    ((built ops).apply op).globals[a]? = (built ops).globals[a]?
  apart : ∀ q ∈ empty.handedOut ops, q.Apart r

variable {b : Builder} {op : Operation} {r : Extent}

theorem addGlobal_globals (b : Builder) (name : String) (value : Value) :
    (b.addGlobal name value).2.globals =
      Memory.setWords (b.globals ++ Array.replicate (max value.words.length 1) 0)
        (UInt16.ofNat b.globals.size).toNat value.words := by
  simp only [addGlobal, addDef_globals]
  rfl

/-- The words of a value are at the address that adding it answers, whatever else is there. -/
theorem addGlobal_stored (b : Builder) (name : String) (value : Value) {i : Nat}
    (lt : i < value.words.length) :
    (b.addGlobal name value).2.globals[b.globals.size % 0x10000 + i]? = value.words[i]? := by
  have around := Nat.mod_le b.globals.size 0x10000
  rw [addGlobal_globals, show (UInt16.ofNat b.globals.size).toNat = b.globals.size % 0x10000 from rfl,
    Memory.getElem?_setWords _ _ _ _ (by rw [Array.size_append, Array.size_replicate]; omega),
    if_pos (by omega), Nat.add_sub_cancel_left]

theorem extent?_eq (h : b.extent? op = some r) :
    r = ⟨b.globals.size % 0x10000, op.contents.length⟩ := by
  cases op with
  | addGlobal name value =>
    cases h
    rfl
  | reserveWords count =>
    cases h
    rfl
  | _ => cases h

theorem apply_size (b : Builder) (op : Operation) :
    b.globals.size ≤ (b.apply op).globals.size ∧
      ∀ r, b.extent? op = some r → (b.apply op).globals.size = b.globals.size + r.count := by
  have nothing (globals : (b.apply op).globals = b.globals) (none : b.extent? op = .none) :
      b.globals.size ≤ (b.apply op).globals.size ∧
        ∀ r, b.extent? op = some r → (b.apply op).globals.size = b.globals.size + r.count := by
    refine ⟨Nat.le_of_eq (congrArg Array.size globals).symm, fun r h => ?_⟩
    cases none.symm.trans h
  cases op with
  | addGlobal name value =>
    have size : (b.apply (.addGlobal name value)).globals.size =
        b.globals.size + (Operation.addGlobal name value).contents.length := by
      simp only [apply, addGlobal_globals, Memory.size_setWords, Array.size_append,
        Array.size_replicate, Operation.contents, List.length_append, List.length_replicate]
      omega
    refine ⟨Nat.le.intro size.symm, fun r h => ?_⟩
    cases h
    exact size
  | reserveWords count =>
    have size := b.reserveWords_size count
    refine ⟨Nat.le.intro size.symm, fun r h => ?_⟩
    cases h
    rw [Operation.contents, List.length_replicate]
    exact size
  | reserveGlobals count =>
    refine ⟨?_, fun r h => ?_⟩
    · rw [apply, reserveGlobals, Array.size_append]
      exact Nat.le_add_right _ _
    · cases h
  | addString text => exact nothing (b.addString_globals text) rfl
  | addDef name type offset => exact nothing (b.addDef_globals name type offset) rfl
  | addField name type => exact nothing (b.addString_globals name) rfl
  | addFunction => exact nothing (b.pushFunction_globals ..) rfl
  | addVariadic => exact nothing (b.pushFunction_globals ..) rfl
  | addBuiltin => exact nothing (b.pushFunction_globals ..) rfl
  | _ => exact nothing rfl rfl

theorem apply_appends (few : b.globals.size < 0x10000) (h : b.extent? op = some r) :
    r = ⟨b.globals.size, op.contents.length⟩ ∧
      (b.apply op).globals = b.globals ++ op.contents.toArray := by
  have address : (UInt16.ofNat b.globals.size).toNat = b.globals.size :=
    Nat.mod_eq_of_lt few
  refine ⟨?_, ?_⟩
  · rw [extent?_eq h, Nat.mod_eq_of_lt few]
  · cases op with
    | addGlobal name value =>
      simp only [apply, addGlobal_globals, address, Operation.contents]
      rw [Memory.setWords_behind _ _ (Nat.le_max_left _ _),
        show max value.words.length 1 - value.words.length = 1 - value.words.length by omega]
    | reserveWords count =>
      rw [Operation.contents, List.toArray_replicate]
      rfl
    | _ => cases h

theorem handedOut_inside {ops : List Operation} (h : r ∈ b.handedOut ops) :
    r.first + r.count ≤ (ops.foldl apply b).globals.size := by
  have grows (ops : List Operation) (b : Builder) :
      b.globals.size ≤ (ops.foldl apply b).globals.size := by
    induction ops generalizing b with
    | nil => exact Nat.le_refl _
    | cons op ops ih => exact Nat.le_trans (b.apply_size op).1 (ih _)
  induction ops generalizing b with
  | nil => cases h
  | cons op ops ih =>
    rcases List.mem_append.mp h with here | later
    · have extent := Option.mem_toList.mp here
      have first : r.first ≤ b.globals.size := by
        rw [extent?_eq extent]
        exact Nat.mod_le _ _
      have size := (b.apply_size op).2 r extent
      exact Nat.le_trans (by omega) (grows ops (b.apply op))
    · exact ih later

/-- Every allocation after some calls is sound if and only if addresses have not come around. -/
theorem sound_iff (ops : List Operation) :
    (∀ op r, (built ops).extent? op = some r → Sound ops op r) ↔
      (built ops).globals.size < 0x10000 := by
  constructor
  · intro sound
    refine Nat.not_le.mp fun many => ?_
    have around : (built ops).globals.size % 0x10000 < (built ops).globals.size := by omega
    -- A global is added whose value differs from the word that is in its place.
    let old := (built ops).globals[(built ops).globals.size % 0x10000]
    have stored := (built ops).addGlobal_stored "" (.float (old + 1)) (i := 0) Nat.one_pos
    have kept := (sound (.addGlobal "" (.float (old + 1))) _ rfl).kept _ around
    rw [Array.getElem?_eq_getElem around] at kept
    have same : old + 1 = old := Option.some.inj (stored.symm.trans kept)
    have one : old + 1 = old + 0 := by rw [same, UInt32.add_zero]
    exact absurd (UInt32.add_right_inj old |>.mp one) (by decide)
  · intro few op r extent
    obtain ⟨rfl, appended⟩ := apply_appends few extent
    refine ⟨fun i lt => ?_, fun a lt => ?_, fun q out => ?_⟩
    · rw [appended, Array.getElem?_append_right (Nat.le_add_right ..), Nat.add_sub_cancel_left,
        List.getElem?_toArray]
    · rw [appended, Array.getElem?_append_left lt]
    · exact .of_le (handedOut_inside out)

end Builder

theorem Value.length_words_le (value : Value) : value.words.length ≤ 4 := by
  cases value <;> exact Nat.le_of_ble_eq_true rfl

/-- The words that every module starts with. -/
def reservedWords : Extent := ⟨0, Address.reserved⟩

namespace Assembly
variable {address : Nat} {rs : List Reservation}

/-- The words of names that are placed one behind another. -/
def extentsAt (address : Nat) (rs : List Reservation) : List Extent :=
  List.zipWith (fun p r => ⟨p.address.toNat, r.words⟩) (placeAll address rs) rs

/-- The words of each name of a source. -/
def Source.extents (s : Source) : List Extent := extentsAt Address.reserved s.reservations

theorem wordCount_cons (r : Reservation) (rs : List Reservation) :
    wordCount (r :: rs) = r.words + wordCount rs := List.sum_cons

theorem extentsAt_cons (address : Nat) (r : Reservation) (rs : List Reservation) :
    extentsAt address (r :: rs) =
      ⟨address % 0x10000, r.words⟩ :: extentsAt (address + r.words) rs := rfl

theorem extentsAt_apart
    (starts : ∀ i < rs.length, address + wordCount (rs.take i) < 0x10000) :
    (extentsAt address rs).Pairwise Extent.Apart ∧ ∀ q ∈ extentsAt address rs, address ≤ q.first := by
  induction rs generalizing address with
  | nil => exact ⟨.nil, fun q hq => absurd hq List.not_mem_nil⟩
  | cons r rs ih =>
    have first : address < 0x10000 := starts 0 (Nat.zero_lt_succ _)
    obtain ⟨pairs, behind⟩ := @ih (address + r.words) fun i hi => by
      have later := starts (i + 1) (Nat.succ_lt_succ hi)
      rwa [List.take_succ_cons, wordCount_cons, ← Nat.add_assoc] at later
    rw [extentsAt_cons, Nat.mod_eq_of_lt first]
    refine ⟨List.pairwise_cons.mpr ⟨fun q hq => .of_le (behind q hq), pairs⟩, ?_⟩
    exact List.forall_mem_cons.mpr
      ⟨Nat.le_refl _, fun q hq => Nat.le_trans (Nat.le_add_right ..) (behind q hq)⟩

/-- Some words, and no more than every module starts with. -/
structure Reservation.Small (r : Reservation) : Prop where
  some : 0 < r.words
  few : r.words ≤ Address.reserved

theorem Reservation.Small.of_le {r : Reservation} (some : 0 < r.words) (few : r.words ≤ 4) :
    r.Small := ⟨some, Nat.le_trans few (by decide)⟩

/-- The first name whose address comes around would be among the words that every module starts
with. -/
theorem starts_of_apart (widths : ∀ r ∈ rs, r.Small)
    (near : address < 0x10000 + Address.reserved)
    (apart : ∀ q ∈ extentsAt address rs, reservedWords.Apart q) :
    ∀ i < rs.length, address + wordCount (rs.take i) < 0x10000 := by
  induction rs generalizing address with
  | nil => exact fun i hi => absurd hi (Nat.not_lt_zero i)
  | cons r rs ih =>
    rw [extentsAt_cons, List.forall_mem_cons] at apart
    obtain ⟨width, widths⟩ := List.forall_mem_cons.mp widths
    have first : address < 0x10000 := by
      refine Nat.not_le.mp fun around => ?_
      have inside : address % 0x10000 < Address.reserved := by omega
      exact apart.1 _ ⟨Nat.zero_le _, by rwa [reservedWords, Nat.zero_add]⟩
        ⟨Nat.le_refl _, Nat.lt_add_of_pos_right width.some⟩
    intro i hi
    cases i with
    | zero => exact first
    | succ i =>
      have few := width.few
      have later := ih widths (by omega) apart.2 i (Nat.lt_of_succ_lt_succ hi)
      rwa [List.take_succ_cons, wordCount_cons, ← Nat.add_assoc]

theorem GlobalSource.words_small (g : GlobalSource) : (Reservation.ofModule g.name g.words).Small := by
  unfold GlobalSource.words
  split
  · rename_i value _ _
    refine .of_le ?_ ?_
    · exact Nat.le_max_right value.words.length 1
    · exact Nat.max_le.mpr ⟨value.length_words_le, by decide⟩
  · exact .of_le Nat.one_pos (Nat.le_of_ble_eq_true rfl)

theorem FunctionSource.reservations_small (f : FunctionSource) (i : Nat) :
    ∀ r ∈ f.reservations i, r.Small := by
  have symbols (l : List Symbol) : ∀ r ∈ l.map (·.reservation i), r.Small := by
    intro r hr
    obtain ⟨s, -, rfl⟩ := List.mem_map.mp hr
    exact .of_le s.type.width_pos s.type.width_le
  have further : ∀ r ∈ f.further i, r.Small := by
    unfold FunctionSource.further
    cases f.variadic with
    | false => exact fun r hr => absurd hr List.not_mem_nil
    | true =>
      refine List.forall_mem_cons.mpr ⟨.of_le Nat.one_pos (Nat.le_of_ble_eq_true rfl), ?_⟩
      refine List.forall_mem_singleton.mpr ⟨?_, ?_⟩ <;>
        dsimp only [maxParameters, Address.argumentWords, Address.reserved] <;> omega
  unfold FunctionSource.reservations FunctionSource.own
  refine List.forall_mem_append.mpr ⟨?_, List.forall_mem_singleton.mpr ?_⟩
  · cases f.builtin with
    | some n => exact fun r hr => absurd hr List.not_mem_nil
    | none =>
      exact List.forall_mem_append.mpr
        ⟨List.forall_mem_append.mpr ⟨symbols _, further⟩, symbols _⟩
  · exact .of_le Nat.one_pos (Nat.le_of_ble_eq_true rfl)

theorem Source.reservations_small (s : Source) : ∀ r ∈ s.reservations, r.Small := by
  unfold Source.reservations
  refine List.forall_mem_append.mpr ⟨List.forall_mem_append.mpr ⟨fun r hr => ?_, fun r hr => ?_⟩, ?_⟩
  · obtain ⟨field, -, rfl⟩ := List.mem_map.mp hr
    exact .of_le Nat.one_pos (Nat.le_of_ble_eq_true rfl)
  · obtain ⟨g, -, rfl⟩ := List.mem_map.mp hr
    exact g.words_small
  · intro r hr
    obtain ⟨⟨f, i⟩, -, hr⟩ := List.mem_flatMap.mp hr
    exact f.reservations_small i r hr

/-- The names of a source are apart from one another and from the words that every module starts with
if and only if none starts at an address that has come around. -/
theorem Source.extents_apart_iff (s : Source) :
    (reservedWords :: s.extents).Pairwise Extent.Apart ↔
      ∀ i < s.reservations.length,
        Address.reserved + wordCount (s.reservations.take i) < 0x10000 := by
  constructor
  · intro apart
    exact starts_of_apart s.reservations_small (by decide) (List.pairwise_cons.mp apart).1
  · intro starts
    obtain ⟨pairs, behind⟩ := extentsAt_apart starts
    refine List.pairwise_cons.mpr ⟨fun q hq => .of_le ?_, pairs⟩
    rw [reservedWords, Nat.zero_add]
    exact behind q hq

/-- Allocation of words. After any calls on a builder, a call that allocates stores its words at the
address that it answers, keeps all others and is apart from all that was handed out, whatever the call
is, if and only if the builder has fewer than 65536 words. The names that an assembled source declares
are apart from one another, and from the words that every module starts with, if and only if each of
them starts below 65536. -/
theorem allocation_apart (ops : List Builder.Operation) (s : Source) :
    ((∀ op r, (Builder.built ops).extent? op = some r → Builder.Sound ops op r) ↔
      (Builder.built ops).globals.size < 0x10000) ∧
    ∀ b, assemble s = .ok b →
      b.names = reservedNames ++ s.placements.map Placement.entry ∧
      ((reservedWords :: s.extents).Pairwise Extent.Apart ↔
        ∀ i < s.reservations.length,
          Address.reserved + wordCount (s.reservations.take i) < 0x10000) := by
  refine ⟨Builder.sound_iff ops, fun b assembled => ⟨?_, s.extents_apart_iff⟩⟩
  rw [assemble_eq] at assembled
  obtain ⟨⟨b₀, declared⟩, declarations, added⟩ := ok_of_bind assembled
  rw [(addBodies_add added).2.2.1]
  exact (declarations_names declarations).1

/-- A vector and then a float are apart in a builder, and so are the names of a source. -/
theorem returning_apart : ∃ b,
    (Builder.built [.addGlobal "v" (.vector ⟨1, 2, 3⟩)]).globals.size < 0x10000 ∧
    Builder.Sound [.addGlobal "v" (.vector ⟨1, 2, 3⟩)] (.addGlobal "f" (.float 4)) ⟨31, 1⟩ ∧
    assemble returning = .ok b ∧
    b.names = reservedNames ++ returning.placements.map Placement.entry ∧
    (reservedWords :: returning.extents).Pairwise Extent.Apart := by
  obtain ⟨sound, names⟩ := allocation_apart [.addGlobal "v" (.vector ⟨1, 2, 3⟩)] returning
  obtain ⟨b, assembled, -⟩ := (Option.any_eq_true _ _).mp returning_assembles.2
  have assembled := ok_of_toOption assembled
  have few : (Builder.built [.addGlobal "v" (.vector ⟨1, 2, 3⟩)]).globals.size < 0x10000 := by decide
  refine ⟨b, few, sound.mpr few _ _ (by decide), assembled, ?_⟩
  exact (names b assembled).imp_right fun apart => apart.mpr (by decide)

end Assembly

namespace Builder

/-- Calls after which the next address is that of the first global. -/
def aroundOnce : List Operation := [.addGlobal "a" (.float 0x3f800000), .reserveWords 65535]

/-- A second global is put where the first one is. -/
theorem aroundOnce_overwritten :
    ⟨28, 1⟩ ∈ empty.handedOut aroundOnce ∧
    (built aroundOnce).extent? (.addGlobal "b" (.float 0x40000000)) = some ⟨28, 1⟩ ∧
    (built aroundOnce).globals[28]? = some 0x3f800000 ∧
    ((built aroundOnce).apply (.addGlobal "b" (.float 0x40000000))).globals[28]? =
      some 0x40000000 := by
  have first : (empty.apply (.addGlobal "a" (.float 0x3f800000))).globals.size = 29 := by decide
  have size : (built aroundOnce).globals.size = 65564 := by
    refine ((empty.apply (.addGlobal "a" (.float 0x3f800000))).reserveWords_size 65535).trans ?_
    rw [first]
  have stored := (built aroundOnce).addGlobal_stored "b" (.float 0x40000000) (i := 0) Nat.one_pos
  rw [size] at stored
  refine ⟨List.mem_append_left _ (Option.mem_toList.mpr (by decide)), ?_, ?_, stored⟩
  · change some (Extent.mk (UInt16.ofNat (built aroundOnce).globals.size).toNat 1) = _
    rw [size]
    decide
  · change ((empty.apply (.addGlobal "a" (.float 0x3f800000))).globals ++
      Array.replicate 65535 0)[28]? = _
    rw [Array.getElem?_append_left (by rw [first]; decide)]
    decide

end Builder
end GameBytecode
