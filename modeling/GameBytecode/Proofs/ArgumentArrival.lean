import GameBytecode.Proofs.EntryPaths
import GameBytecode.Proofs.FunctionRegion
import GameBytecode.Proofs.MachineChange

/-!
What a function finds of the arguments that are written for it. The slots of a call are three words
apart, and a quaternion has four: its last word is also the first word of the next slot, and behind the
last slot it is the first word that a function can have for its own. There a quaternion loses its last
word to another argument; everything else arrives as it was written.
-/
namespace GameBytecode

namespace Address

theorem argument_succ (n : Nat) : argument (n + 1) = argument n + 3 := by
  unfold argument argumentWords
  omega

/-- A word of an argument is before the words of the function, or it is the fourth word of the last slot
and the first word there. -/
theorem argument_lt {i j start : Nat} (few : i < maxParameters) (width : j < 4)
    (behind : reserved ≤ start) :
    argument i + j < start ∨ i + 1 = maxParameters ∧ j = 3 ∧ start = reserved := by
  unfold argument argumentWords reserved maxParameters at *
  omega

theorem argument_last {i : Nat} (last : i + 1 = maxParameters) : argument i + 3 = reserved := by
  unfold argument argumentWords reserved maxParameters at *
  omega

end Address

namespace Memory

/-- The memory once arguments are written to the slots from a number on, one after another. -/
def passing (memory : Memory) (n : Nat) : List (List Word) → Except Fault Memory
  | [] => .ok memory
  | ws :: rest => do (← memory.writeSlice (Address.argument n) ws).passing (n + 1) rest

theorem writeSlice_ok {memory memory' : Memory} {address : Nat} {ws : List Word}
    (h : memory.writeSlice address ws = .ok memory') :
    memory'.words.size = memory.words.size ∧ ∀ a, memory'.words[a]? =
      if address ≤ a ∧ a < address + ws.length then ws[a - address]? else memory.words[a]? := by
  simp only [writeSlice, resolve_natCast] at h
  by_cases inside : address + ws.length ≤ memory.words.size
  · rw [if_pos inside] at h
    cases h
    exact ⟨size_setWords _ _ _, fun a => getElem?_setWords _ _ _ _ inside⟩
  · rw [if_neg inside] at h
    cases h

/-- An argument is found in its slot, but for a fourth word where another argument follows. -/
theorem passing_ok {memory memory' : Memory} {n : Nat} {args : List (List Word)}
    (narrow : ∀ ws ∈ args, ws.length ≤ 4) (h : memory.passing n args = .ok memory') :
    memory'.words.size = memory.words.size ∧
      (∀ a < Address.argument n, memory'.words[a]? = memory.words[a]?) ∧
      ∀ i ws, args[i]? = some ws → ∀ j < ws.length, j < 3 ∨ i + 1 = args.length →
        memory'.words[Address.argument (n + i) + j]? = ws[j]? := by
  induction args generalizing memory n with
  | nil =>
    cases h
    refine ⟨rfl, fun a _ => rfl, fun i ws found => ?_⟩
    cases found
  | cons ws rest ih =>
    obtain ⟨memory₁, written, h⟩ := ok_of_bind h
    obtain ⟨size, words⟩ := writeSlice_ok written
    obtain ⟨narrow, narrows⟩ := List.forall_mem_cons.mp narrow
    obtain ⟨size', below, placed⟩ := ih narrows h
    have next := Address.argument_succ n
    refine ⟨size'.trans size, fun a ha => ?_, fun i ws' found j hj last => ?_⟩
    · rw [below a (by omega), words, if_neg (by omega)]
    · cases i with
      | zero =>
        cases found
        have kept : memory'.words[Address.argument n + j]? = memory₁.words[Address.argument n + j]? := by
          rcases last with within | alone
          · exact below _ (by omega)
          · cases rest with
            | nil =>
              cases h
              rfl
            | cons => cases alone
        rw [Nat.add_zero, kept, words, if_pos (by omega), Nat.add_sub_cancel_left]
      | succ i =>
        rw [← Nat.add_assoc, Nat.add_right_comm]
        exact placed i ws' found j hj (last.imp_right Nat.succ.inj)

end Memory

namespace Machine
variable {f : FunctionRecord} {poison : Bool} {argc : Nat} {st st' : Store}

theorem passFurther_kept {target : Nat} (h : passFurther f argc target st = (.ok (), st')) :
    st'.memory.words.size = st.memory.words.size ∧
      ∀ a < target, st'.memory.words[a]? = st.memory.words[a]? := by
  have size := (passFurther_alike f argc target st).size
  rw [h] at size
  obtain ⟨_, st₁, counted, h⟩ := Action.ok_of_bind h
  obtain ⟨_, st₂, addressed, copied⟩ := Action.ok_of_bind h
  obtain ⟨-, -, kept₁⟩ := Action.putWord_ok counted
  have addressed : Action.putWord (target + 1 : Nat) (Word.ofSigned (target + 2)) st₁ = (.ok (), st₂) :=
    addressed
  have copied : Action.copy (Address.argument f.fixedCount) (target + 2 : Nat) f.slotWords st₂ =
      (.ok (), st') := copied
  obtain ⟨-, -, kept₂⟩ := Action.putWord_ok addressed
  obtain ⟨-, -, words⟩ := Action.copy_ok copied
  refine ⟨size, fun a ha => ?_⟩
  rw [words, if_neg (by omega), kept₂ _ (by omega), kept₁ _ (by omega)]

theorem poison_kept {α : Type} {rest : Action α} {answer : α}
    (h : (do if poison then Action.put f.start.toNat (List.replicate f.locals.toNat deadbeef)
             rest : Action α) st = (.ok answer, st')) :
    ∃ st₁, rest st₁ = (.ok answer, st') ∧ st₁.memory.words.size = st.memory.words.size ∧
      ∀ a < f.start.toNat, st₁.memory.words[a]? = st.memory.words[a]? := by
  cases poison with
  | false => exact ⟨st, h, rfl, fun _ _ => rfl⟩
  | true =>
    obtain ⟨_, st₁, overwritten, h⟩ := Action.ok_of_bind h
    have size := (Action.put_alike f.start.toNat (List.replicate f.locals.toNat deadbeef) st).size
    rw [show Action.put _ _ st = _ from overwritten] at size
    obtain ⟨-, words⟩ := Action.put_ok overwritten
    exact ⟨st₁, h, size, fun a ha => (words a).trans (if_neg (by omega))⟩

theorem sum_take_pos {sizes : List Nat} (positive : ∀ size ∈ sizes, 0 < size) {i : Nat}
    (hi : i < sizes.length) (later : 0 < i) : 0 < (sizes.take i).sum := by
  cases sizes with
  | nil => cases hi
  | cons size rest =>
    obtain ⟨n, rfl⟩ := Nat.exists_eq_add_one_of_ne_zero (Nat.ne_of_gt later)
    rw [List.take_succ_cons, List.sum_cons]
    exact Nat.add_pos_left (positive size List.mem_cons_self) _

/-- Each word of a parameter is that of its slot, or, where the slot reaches into the words of the
function, the first word of the first argument. -/
theorem passArguments_words (behind : Address.reserved ≤ f.start.toNat)
    (narrow : ∀ size ∈ f.fixedSizes, 0 < size ∧ size ≤ 4)
    (h : passArguments poison f argc st = (.ok (), st')) :
    st'.memory.words.size = st.memory.words.size ∧ ∀ i (hi : i < f.fixedSizes.length),
      f.start.toNat + (f.fixedSizes.take i).sum + f.fixedSizes[i] ≤ st.memory.words.size ∧
      ∀ j < f.fixedSizes[i], st'.memory.words[f.start.toNat + (f.fixedSizes.take i).sum + j]? =
        st.memory.words[if Address.argument i + j < f.start.toNat then Address.argument i + j
          else Address.argument 0]? := by
  obtain ⟨st₁, h, size₁, below⟩ := poison_kept h
  obtain ⟨next, st₂, fixed, further⟩ := Action.ok_of_bind h
  obtain ⟨rfl, size₂, placed, -⟩ := passFixed_words fixed
  obtain ⟨size₃, kept⟩ : st'.memory.words.size = st₂.memory.words.size ∧
      ∀ a < f.furtherStart, st'.memory.words[a]? = st₂.memory.words[a]? := by
    split at further
    · exact passFurther_kept further
    · cases further
      exact ⟨rfl, fun _ _ => rfl⟩
  simp only [Nat.zero_add, size₁] at placed size₂
  -- the first parameter is copied before anything else can be read behind the slots
  have first (some : 0 < f.fixedSizes.length) :
      st₂.memory.words[f.start.toNat]? = st.memory.words[Address.argument 0]? := by
    obtain ⟨-, -, words⟩ := placed 0 some
    have word := words 0 (narrow _ (List.getElem_mem some)).1
    unfold Address.reserved at behind
    rw [if_neg (by unfold Address.argument; omega)] at word
    exact word.trans (below _ (by unfold Address.argument; omega))
  refine ⟨size₃.trans size₂, fun i hi => ?_⟩
  obtain ⟨-, writable, words⟩ := placed i hi
  refine ⟨writable, fun j hj => ?_⟩
  have inside := f.fixedSizes_take_le hi
  have width := (narrow _ (List.getElem_mem hi)).2
  have few := f.length_fixedSizes ▸ hi
  rw [kept _ (by omega), words j hj]
  have count : f.fixedCount ≤ maxParameters := Nat.min_le_right _ _
  rcases Address.argument_lt (Nat.lt_of_lt_of_le few count) (Nat.lt_of_lt_of_le hj width) behind with
    slot | ⟨last, rfl, start⟩
  · rw [if_pos slot, if_neg (by omega), below _ slot]
  · have place := (Address.argument_last last).trans start.symm
    have later : 0 < i := by
      unfold maxParameters at last
      omega
    have before := sum_take_pos (fun size mem => (narrow size mem).1) hi later
    have past : ¬ Address.argument i + 3 < f.start.toNat := by omega
    rw [if_neg past, if_pos (by omega), place]
    exact first (Nat.zero_lt_of_lt hi)

theorem enter_passes {v v' : Machine} {m : Module} {number first : Nat}
    (found : m.function? number = some f) (h : v.enter m number = (.ok first, v')) :
    passArguments v.settings.deadbeefLocals f v.argc v.store = (.ok (), v'.store) := by
  cases admitted : v.admission m number with
  | error e =>
    unfold enter at h
    rw [admitted] at h
    cases h
  | ok g =>
    obtain ⟨same, -⟩ := admission_ok admitted
    cases found.symm.trans same
    rw [enter_of_admission admitted] at h
    obtain ⟨passed, rfl⟩ := Prod.mk.inj h
    refine Prod.ext ?_ rfl
    cases answer : (passArguments v.settings.deadbeefLocals f v.argc v.store).1 with
    | error e =>
      rw [answer] at passed
      cases passed
    | ok passed => rfl

theorem call_enters {v v' : Machine} {m : Module} {index number : Nat} {next : Int}
    (h : v.call m index number = (.go next, v')) :
    ∃ first, v.enter m number = (.ok first, v') := by
  unfold call at h
  split at h
  · cases h
  · cases h
  · cases entered : v.enter m number with
    | mk result w =>
      rw [entered] at h
      cases result with
      | error e => cases h
      | ok first =>
        cases h
        exact ⟨first, rfl⟩

end Machine

namespace Assembly

/-- The parameter is a quaternion whose last word is also a word of another argument: of the next one, or
behind the last slot of the first one, where the words of the function start. -/
structure FunctionSource.Crowded (f : FunctionSource) (start k : Nat) : Prop where
  quaternion : (f.params[k]?).map (·.type) = some .quaternion
  shared : k + 1 < f.params.length ∨ k + 1 = maxParameters ∧ start = Address.reserved

theorem four_words_iff (type : ValueType) : type.width = 4 ↔ type = .quaternion := by
  cases type <;> decide

/-- Where the words of a parameter are, in a function whose words start at a place. -/
def FunctionSource.slotOf (f : FunctionSource) (start k : Nat) : Nat :=
  start + ((widths f.params).take k).sum

/-- Arguments of the types of the parameters are in their slots in one memory, and have been copied to
the parameters in the other. -/
structure Handed (f : FunctionSource) (start : Nat) (args : List (List Word)) (given taken : Memory) :
    Prop where
  behind : Address.reserved ≤ start
  few : args.length ≤ maxParameters
  count : args.length = f.params.length
  typed : ∀ (k : Nat) (s : Symbol) (ws : List Word), f.params[k]? = some s → args[k]? = some ws →
    ws.length = s.type.width
  slots : ∀ (k : Nat) (ws : List Word), args[k]? = some ws →
    ∀ j < ws.length, j < 3 ∨ k + 1 = args.length → given.words[Address.argument k + j]? = ws[j]?
  inside : ∀ (k : Nat) (ws : List Word), args[k]? = some ws →
    f.slotOf start k + ws.length ≤ taken.words.size
  words : ∀ (k : Nat) (ws : List Word), args[k]? = some ws →
    ∀ j < ws.length, taken.words[f.slotOf start k + j]? =
      given.words[if Address.argument k + j < start then Address.argument k + j
        else Address.argument 0]?

theorem handed {f : FunctionSource} {record : FunctionRecord} {args : List (List Word)}
    {before : Memory} {st st' : Store} {poison : Bool} {argc : Nat}
    (few : f.params.length ≤ maxParameters) (behind : Address.reserved ≤ record.start.toNat)
    (sizes : record.fixedSizes = widths f.params) (typed : args.map List.length = widths f.params)
    (written : before.passing 0 args = .ok st.memory)
    (passed : Machine.passArguments poison record argc st = (.ok (), st')) :
    Handed f record.start.toNat args st.memory st'.memory := by
  have count : args.length = f.params.length := by
    have lengths := congrArg List.length typed
    rwa [List.length_map, widths, List.length_map] at lengths
  have narrow : ∀ size ∈ record.fixedSizes, 0 < size ∧ size ≤ 4 := by
    intro size mem
    rw [sizes] at mem
    obtain ⟨s, -, rfl⟩ := List.mem_map.mp mem
    exact ⟨s.type.width_pos, s.type.width_le⟩
  have short : ∀ ws ∈ args, ws.length ≤ 4 := by
    intro ws mem
    apply (narrow ws.length _).2
    rw [sizes, ← typed]
    exact List.mem_map_of_mem mem
  obtain ⟨size, arrived⟩ := Machine.passArguments_words behind narrow passed
  rw [sizes, ← typed] at arrived
  have arrived (k : Nat) (ws : List Word) (hw : args[k]? = some ws) :
      f.slotOf record.start.toNat k + ws.length ≤ st.memory.words.size ∧
        ∀ j < ws.length, st'.memory.words[f.slotOf record.start.toNat k + j]? =
          st.memory.words[if Address.argument k + j < record.start.toNat then Address.argument k + j
            else Address.argument 0]? := by
    obtain ⟨hk, rfl⟩ := List.getElem?_eq_some_iff.mp hw
    obtain ⟨writable, words⟩ := arrived k (by rwa [List.length_map])
    rw [List.getElem_map] at writable words
    rw [FunctionSource.slotOf, ← typed]
    exact ⟨writable, words⟩
  obtain ⟨-, -, slots⟩ := Memory.passing_ok short written
  simp only [Nat.zero_add] at slots
  refine ⟨behind, count ▸ few, count, fun k s ws hs hw => ?_, slots, fun k ws hw => ?_,
    fun k ws hw => (arrived k ws hw).2⟩
  · have same := congrArg (·[k]?) typed
    simp only [widths, List.getElem?_map, hs, hw, Option.map_some, Option.some.injEq] at same
    exact same
  · rw [size]
    exact (arrived k ws hw).1

namespace Handed
variable {f : FunctionSource} {start : Nat} {args : List (List Word)} {given taken : Memory} {k j : Nat}
  {s : Symbol} {ws : List Word}

theorem own_word (h : Handed f start args given taken) (hs : f.params[k]? = some s)
    (hw : args[k]? = some ws) (hj : j < ws.length) (own : j < 3 ∨ ¬ f.Crowded start k) :
    taken.words[f.slotOf start k + j]? = ws[j]? := by
  have length := h.typed k s ws hs hw
  have wide := s.type.width_le
  obtain ⟨hk, -⟩ := List.getElem?_eq_some_iff.mp hw
  have alone : j < 3 ∨ k + 1 = args.length ∧ ¬ (k + 1 = maxParameters ∧ start = Address.reserved) := by
    refine Decidable.or_iff_not_imp_left.mpr fun fourth => ?_
    have quaternion : (f.params[k]?).map (·.type) = some .quaternion := by
      rw [hs]
      exact congrArg some ((four_words_iff s.type).mp (by omega))
    obtain ⟨last, apart⟩ := not_or.mp fun shared => own.resolve_left fourth ⟨quaternion, shared⟩
    have count := h.count
    exact ⟨by omega, apart⟩
  have slot : Address.argument k + j < start := by
    rcases Address.argument_lt (Nat.lt_of_lt_of_le hk h.few) (by omega : j < 4) h.behind with
      slot | ⟨eighth, rfl, reserved⟩
    · exact slot
    · exact absurd ⟨eighth, reserved⟩ (alone.resolve_left (Nat.lt_irrefl 3)).2
  rw [h.words k ws hw j hj, if_pos slot]
  exact h.slots k ws hw j hj (alone.imp_right And.left)

/-- The last word of a quaternion that shares it is the first word of the other argument. -/
theorem shared_word (h : Handed f start args given taken) (hw : args[k]? = some ws)
    (four : ws.length = 4) (crowded : f.Crowded start k) {next : List Word}
    (hn : args[(k + 1) % args.length]? = some next) (nonempty : 0 < next.length) :
    taken.words[f.slotOf start k + 3]? = next[0]? := by
  obtain ⟨hk, -⟩ := List.getElem?_eq_some_iff.mp hw
  have few := h.few
  have count := h.count
  rw [h.words k ws hw 3 (by omega)]
  rcases crowded.shared with more | ⟨last, rfl⟩
  · rw [Nat.mod_eq_of_lt (by omega)] at hn
    rcases Address.argument_lt (Nat.lt_of_lt_of_le hk few) (by decide : 3 < 4) h.behind with
      slot | ⟨eighth, -⟩
    · rw [if_pos slot, ← Address.argument_succ]
      exact h.slots (k + 1) next hn 0 nonempty (.inl (by decide))
    · omega
  · have eight : k + 1 = args.length := by omega
    rw [eight, Nat.mod_self] at hn
    rw [if_neg (Nat.not_lt.mpr (Nat.le_of_eq (Address.argument_last last).symm))]
    exact h.slots 0 next hn 0 nonempty (.inl (by decide))

theorem slice_of_clear (h : Handed f start args given taken) (hs : f.params[k]? = some s)
    (hw : args[k]? = some ws) (clear : ¬ f.Crowded start k) :
    taken.slice (f.slotOf start k) s.type.width = .ok ws := by
  rw [← h.typed k s ws hs hw]
  apply Memory.slice_of_words (h.inside k ws hw)
  exact fun j hj => h.own_word hs hw hj (.inr clear)

/-- A quaternion that shares its last word arrives with that of the other argument. -/
theorem slice_of_crowded (h : Handed f start args given taken) (hs : f.params[k]? = some s)
    (hw : args[k]? = some ws) (crowded : f.Crowded start k) :
    taken.slice (f.slotOf start k) s.type.width =
      .ok (ws.take 3 ++ (args.getD ((k + 1) % args.length) []).take 1) := by
  have length := h.typed k s ws hs hw
  have four : ws.length = 4 := by
    have quaternion := crowded.quaternion
    rw [hs] at quaternion
    rw [length]
    exact (four_words_iff s.type).mpr (Option.some.inj quaternion)
  obtain ⟨hk, -⟩ := List.getElem?_eq_some_iff.mp hw
  have following : (k + 1) % args.length < args.length := Nat.mod_lt _ (Nat.zero_lt_of_lt hk)
  have found := List.getElem?_eq_getElem following
  rw [List.getD_eq_getElem?_getD, found, Option.getD_some]
  generalize args[(k + 1) % args.length] = next at found
  have nonempty : 0 < next.length := by
    obtain ⟨t, ht⟩ : ∃ t, f.params[(k + 1) % args.length]? = some t :=
      ⟨_, List.getElem?_eq_getElem (h.count ▸ following)⟩
    rw [h.typed _ t next ht found]
    exact t.type.width_pos
  have total : (ws.take 3 ++ next.take 1).length = ws.length := by
    rw [List.length_append, List.length_take, List.length_take]
    omega
  rw [← length, ← total]
  apply Memory.slice_of_words
  · rw [total]
    exact h.inside k ws hw
  · intro j hj
    by_cases first : j < 3
    · rw [List.getElem?_append_left (by rw [List.length_take]; omega), List.getElem?_take_of_lt first]
      exact h.own_word hs hw (by omega) (.inl first)
    · have last : j = 3 := by omega
      rw [last, h.shared_word hw four crowded found nonempty,
        List.getElem?_append_right (by rw [List.length_take]; omega), List.length_take, four]
      exact (List.getElem?_take_of_lt Nat.one_pos).symm

end Handed

theorem getElem?_placeAll (address : Nat) (rs : List Reservation) (k : Nat) :
    (placeAll address rs)[k]? = (rs[k]?).map fun r =>
      ⟨r.name, r.owner, UInt16.ofNat (address + wordCount (rs.take k))⟩ := by
  induction rs generalizing address k with
  | nil => rfl
  | cons r rs ih =>
    cases k with
    | zero => rfl
    | succ k =>
      rw [placeAll, List.getElem?_cons_succ, List.getElem?_cons_succ, ih, Nat.add_assoc]
      rfl

theorem FunctionSource.placed_param {f : FunctionSource} (bytecode : f.builtin = none) (i start : Nat)
    {k : Nat} {s : Symbol} (hs : f.params[k]? = some s) :
    (placeAll start (f.own i))[k]? = some ⟨s.name, some i, UInt16.ofNat (f.slotOf start k)⟩ := by
  obtain ⟨hk, -⟩ := List.getElem?_eq_some_iff.mp hs
  have inside : k < (f.params.map (·.reservation i)).length := by rwa [List.length_map]
  simp only [own, bytecode, Option.isSome_none, Bool.false_eq_true, if_false, List.append_assoc]
  rw [getElem?_placeAll, List.getElem?_append_left inside, List.take_append_of_le_length (Nat.le_of_lt inside),
    ← List.map_take, wordCount_reservations, List.getElem?_map, hs, slotOf, widths, widths, List.map_take]
  rfl

/-- Arguments of the types of the parameters are written to the slots of a call, in order, and the call
enters the function. Then each parameter has, at its place among the words of the function, the words of
its argument, as long as that shares no word of its slot with another one; of a quaternion that does, the
last word is the first of the other argument. The name of the parameter has the low 16 bits of the place.
-/
theorem arguments_arrive {source : Source} {b : Builder} {f : FunctionSource} {i : Nat}
    (assembled : assemble source = .ok b) (small : b.bytes.length < 0x80000000)
    {capacity heapBytes : Nat} {m : Module}
    (loaded : Image.load b.bytes capacity heapBytes = .ok m)
    (declared : source.functions[i]? = some f) (bytecode : f.builtin = none)
    {args : List (List Word)} (typed : args.map List.length = widths f.params)
    {before : Memory} {v w v' : Machine} {frame : RunFrame} {executed : Nat} {next first : Int}
    (running : frame.program = m) (written : before.passing 0 args = .ok v.store.memory)
    (called : v.Calls frame executed next (i + 1) w)
    (entered : v.turn frame executed next = (.go first, v')) :
    ∀ k s ws, f.params[k]? = some s → args[k]? = some ws →
      (ownedBy i source.placements)[k]? =
        some ⟨s.name, some i, UInt16.ofNat (f.slotOf (source.startOf i) k)⟩ ∧
      (¬ f.Crowded (source.startOf i) k →
        v'.store.memory.slice (f.slotOf (source.startOf i) k) s.type.width = .ok ws) ∧
      (f.Crowded (source.startOf i) k →
        v'.store.memory.slice (f.slotOf (source.startOf i) k) s.type.width =
          .ok (ws.take 3 ++ (args.getD ((k + 1) % args.length) []).take 1)) := by
  have length := b.length_bytes
  obtain ⟨-, -, -, record, -, -, -, -, -, found, reserved, -⟩ :=
    assembled_placed assembled declared bytecode
  have start : record.start.toNat = source.startOf i := by
    have inside := reserved.inside
    rw [reserved.describes.start]
    exact UInt32.toNat_ofNat_of_lt (show source.startOf i < 0x100000000 by omega)
  have few : f.params.length ≤ maxParameters := by
    have few := reserved.few
    unfold FunctionSource.maxParams at few
    split at few <;> omega
  have found : m.function? (i + 1) = some record := by
    rw [Module.function?, (Builder.load_reproduces small loaded).1.functions]
    exact found
  rw [called.turn_eq, running] at entered
  have store : w.store = v.store := by
    obtain ⟨-, -, st, function, argc, -, -, -, rfl⟩ := called
    exact Machine.record_store ..
  obtain ⟨first', entered⟩ := Machine.call_enters entered
  have passed := Machine.enter_passes found entered
  rw [store] at passed
  have handed := handed few (start ▸ Nat.le_add_right ..) reserved.describes.fixedSizes typed written
    passed
  rw [start] at handed
  intro k s ws hs hw
  rw [source.ownedBy_placements declared]
  exact ⟨f.placed_param bytecode i _ hs, handed.slice_of_clear hs hw, handed.slice_of_crowded hs hw⟩

def turn : FunctionSource :=
  ⟨"turn", "", none, [⟨"axis", .quaternion⟩, ⟨"speed", .float⟩], [], false, [[.name "done"]]⟩

def face : FunctionSource :=
  ⟨"face", "", none, [⟨"speed", .float⟩, ⟨"axis", .quaternion⟩], [], false, [[.name "done"]]⟩

def turning : Source where
  version := none
  fields := []
  globals := []
  functions := [turn, face,
    ⟨"main", "", none, [], [], false,
      [[.name "call2", .name "turn"], [.name "call2", .name "face"]]⟩]

theorem turning_assembles : (assemble turning).toOption.isSome := by
  simp only [assemble, addBody, body, statement, ofMnemonic?_eq_find?]
  decide +kernel

def turningBuilder : Builder := (assemble turning).toOption.get turning_assembles

theorem turning_loads : (Machine.load turningBuilder.bytes 0 0 {}).toOption.isSome := by
  simp only [turningBuilder, assemble, addBody, body, statement, ofMnemonic?_eq_find?]
  decide +kernel

def turningMachine : Machine := (Machine.load turningBuilder.bytes 0 0 {}).toOption.get turning_loads

theorem turning_loaded : Image.load turningBuilder.bytes 0 0 = .ok turningMachine.program :=
  (Machine.load_ok (Session.eq_ok_get turning_loads)).1.1

def turningRun : RunFrame := .opening turningMachine.program 0 {}

theorem turningRun_program : turningRun.program = turningMachine.program := by
  simp only [turningRun, RunFrame.opening]

def turningEntered : Machine := (turningMachine.beginRun.enter turningMachine.program 3).2

def faceArgs : List (List Word) := [[5], [1, 2, 3, 4]]

def turnArgs : List (List Word) := [[1, 2, 3, 4], [5]]

def handing (args : List (List Word)) : Machine :=
  { turningEntered with
    store.memory := ((turningEntered.store.memory.passing 0 args).toOption).getD ⟨#[]⟩ }

/-- The call of a function by a statement of the third one, and what is found at a place then. -/
theorem handing_facts :
    (turningBuilder.bytes.length < 0x80000000 ∧ ¬ turningRun.budget.any (· ≤ 0)) ∧
    ((turningEntered.store.memory.passing 0 faceArgs).toOption = some (handing faceArgs).store.memory ∧
      turningRun.program.statements[4]? = some ⟨53, 39, 0, 0⟩ ∧
      (step (handing faceArgs).settings turningRun.program 4 ⟨53, 39, 0, 0⟩
        (handing faceArgs).store).1.toOption = some (.call 2 2) ∧
      ((handing faceArgs).turn turningRun 0 4).1 = .go 2) ∧
    (turningEntered.store.memory.passing 0 turnArgs).toOption = some (handing turnArgs).store.memory ∧
      turningRun.program.statements[3]? = some ⟨53, 33, 0, 0⟩ ∧
      (step (handing turnArgs).settings turningRun.program 3 ⟨53, 33, 0, 0⟩
        (handing turnArgs).store).1.toOption = some (.call 1 2) ∧
      ((handing turnArgs).turn turningRun 0 3).1 = .go 1 ∧
      (((handing turnArgs).turn turningRun 0 3).2.store.memory.slice 28 4).toOption =
        some [1, 2, 3, 5] := by
  simp only [handing, turningEntered, turningRun, turningMachine, turningBuilder, assemble, addBody, body,
    statement, ofMnemonic?_eq_find?]
  decide +kernel

/-- The quaternion of the second function, its last parameter, arrives. -/
theorem face_arrives :
    assemble turning = .ok turningBuilder ∧ turningBuilder.bytes.length < 0x80000000 ∧
      Image.load turningBuilder.bytes 0 0 = .ok turningMachine.program ∧
      faceArgs.map List.length = widths face.params ∧
      turningEntered.store.memory.passing 0 faceArgs = .ok (handing faceArgs).store.memory ∧
      ∃ w v', (handing faceArgs).Calls turningRun 0 4 2 w ∧
        (handing faceArgs).turn turningRun 0 4 = (.go 2, v') ∧
        v'.store.memory.slice 35 4 = .ok [1, 2, 3, 4] := by
  have assembled : assemble turning = .ok turningBuilder := Session.eq_ok_get turning_assembles
  have typed : faceArgs.map List.length = widths face.params := rfl
  obtain ⟨⟨small, within⟩, ⟨passed, fetched, stepped, goes⟩, -⟩ := handing_facts
  have written := ok_of_toOption passed
  have calls : (handing faceArgs).Calls turningRun 0 4 2
      { (handing faceArgs).record turningRun.program 4 with argc := 2 } :=
    ⟨within, by decide, _, 2, 2, fetched, ok_of_toOption stepped, rfl, rfl⟩
  cases turned : (handing faceArgs).turn turningRun 0 4 with
  | mk turn v' =>
    rw [turned] at goes
    cases goes
    have declared : turning.functions[1]? = some face := rfl
    have arrive := arguments_arrive assembled small turning_loaded declared rfl typed
      turningRun_program written calls turned
    refine ⟨assembled, small, turning_loaded, typed, written, _, v', calls, rfl, ?_⟩
    apply (arrive 1 ⟨"axis", .quaternion⟩ [1, 2, 3, 4] rfl rfl).2.1
    rintro ⟨-, shared⟩
    revert shared
    decide

/-- The quaternion of the first function does not arrive: its last word is the number behind it. -/
theorem turn_shares :
    assemble turning = .ok turningBuilder ∧
      Image.load turningBuilder.bytes 0 0 = .ok turningMachine.program ∧
      turning.functions[0]? = some turn ∧ turnArgs.map List.length = widths turn.params ∧
      turningEntered.store.memory.passing 0 turnArgs = .ok (handing turnArgs).store.memory ∧
      (∃ w, (handing turnArgs).Calls turningRun 0 3 1 w) ∧
      ((handing turnArgs).turn turningRun 0 3).1 = .go 1 ∧
      ((ownedBy 0 turning.placements)[0]?).map Placement.entry = some ("axis", 28) ∧
      ((handing turnArgs).turn turningRun 0 3).2.store.memory.slice 28 4 ≠ .ok [1, 2, 3, 4] := by
  obtain ⟨⟨-, within⟩, -, passed, fetched, stepped, goes, held⟩ := handing_facts
  refine ⟨Session.eq_ok_get turning_assembles, turning_loaded, rfl, rfl, ok_of_toOption passed,
    ⟨_, within, by decide, _, 1, 2, fetched, ok_of_toOption stepped, rfl, rfl⟩, goes, by decide, ?_⟩
  rw [ok_of_toOption held]
  simp

end Assembly
end GameBytecode
