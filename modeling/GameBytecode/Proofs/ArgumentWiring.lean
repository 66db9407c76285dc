import Mathlib.Algebra.GroupWithZero.Nat
import GameBytecode.Proofs.BuilderHistory
import GameBytecode.Proofs.CallDiscipline

/-!
How a function finds its arguments. They are copied one after another from the slots of the call to
the first words of the function; behind them a variadic function finds how many more there are,
where they are, and the slots that are left.
-/
namespace GameBytecode

theorem sum_take_le {sizes : List Nat} {i : Nat} (h : i < sizes.length) :
    (sizes.take i).sum + sizes[i] ≤ sizes.sum := by
  have cut := congrArg List.sum (List.take_append_drop i sizes)
  rw [List.sum_append, List.drop_eq_getElem_cons h, List.sum_cons] at cut
  omega

namespace FunctionRecord
variable (f : FunctionRecord)

/-- The first word behind the parameters copied by position. -/
def furtherStart : Nat := f.start.toNat + f.fixedSizes.sum

def slotWords : Nat := (maxParameters - f.fixedCount) * Address.argumentWords

/-- Words from the start of the function on that hold its arguments. -/
def argumentSpan : Nat := f.fixedSizes.sum + if f.isVariadic then 2 + f.slotWords else 0

/-- A word of an argument that is copied. -/
inductive Reads (a : Nat) : Prop where
  | fixed (i : Nat) (h : i < f.fixedSizes.length) (low : Address.argument i ≤ a)
      (high : a < Address.argument i + f.fixedSizes[i])
  | further (variadic : f.isVariadic = true) (low : Address.argument f.fixedCount ≤ a)
      (high : a < Address.argument f.fixedCount + f.slotWords)

/-- No word of an argument is one of the locals, or is written to while arguments are copied. -/
def Apart : Prop :=
  ∀ a, f.Reads a → (a < f.start.toNat ∨ f.start.toNat + f.locals.toNat ≤ a) ∧
    (a < f.start.toNat ∨ f.start.toNat + f.argumentSpan ≤ a)

/-- What a function with a number of arguments finds in memory when it is entered. -/
structure Wired (poison : Bool) (argc : Nat) (before after : Memory) : Prop where
  /-- A parameter stands behind those before it. -/
  fixed : ∀ i (h : i < f.fixedSizes.length), ∃ ws,
    before.slice (Address.argument i) f.fixedSizes[i] = .ok ws ∧
      after.slice (f.start.toNat + (f.fixedSizes.take i).sum : Nat) f.fixedSizes[i] = .ok ws
  count : f.isVariadic = true → ∃ w, after.read f.furtherStart = .ok w ∧
    Word.toSigned w = (argc - f.fixedCount : Nat)
  /-- The address of the word behind the one that holds it. -/
  address : f.isVariadic = true →
    after.read (f.furtherStart + 1 : Nat) = .ok (UInt32.ofNat (f.furtherStart + 1 + 1))
  slots : f.isVariadic = true → ∃ ws,
    before.slice (Address.argument f.fixedCount) f.slotWords = .ok ws ∧
      after.slice (f.furtherStart + 2 : Nat) f.slotWords = .ok ws
  poisoned : poison = true → ∀ a, f.start.toNat + f.argumentSpan ≤ a →
    a < f.start.toNat + f.locals.toNat → after.words[a]? = some Machine.deadbeef
  kept : ∀ a, (a < f.start.toNat ∨ f.start.toNat + f.argumentSpan ≤ a) →
    (poison = true → a < f.start.toNat ∨ f.start.toNat + f.locals.toNat ≤ a) →
      after.words[a]? = before.words[a]?

theorem furtherStart_le : f.furtherStart ≤ f.start.toNat + f.argumentSpan :=
  Nat.add_le_add_left (Nat.le_add_right _ _) _

theorem argumentSpan_of_variadic (h : f.isVariadic = true) :
    f.start.toNat + f.argumentSpan = f.furtherStart + (2 + f.slotWords) := by
  unfold argumentSpan furtherStart
  rw [if_pos h, Nat.add_assoc]

theorem fixedSizes_take_le {i : Nat} (h : i < f.fixedSizes.length) :
    f.start.toNat + (f.fixedSizes.take i).sum + f.fixedSizes[i] ≤ f.furtherStart := by
  rw [furtherStart, Nat.add_assoc]
  exact Nat.add_le_add_left (sum_take_le h) _

theorem length_fixedSizes : f.fixedSizes.length = f.fixedCount := by
  have few : f.fixedCount ≤ maxParameters := Nat.min_le_right _ _
  simp only [fixedSizes, List.length_map, List.length_take, Vector.length_toList]
  exact Nat.min_eq_left few

end FunctionRecord

namespace Word

theorem ofSigned_natCast (n : Nat) : ofSigned n = UInt32.ofNat n :=
  UInt32.toBitVec_inj.mp (BitVec.ofInt_natCast 32 n)

theorem toSigned_ofNat {n : Nat} (h : n < 0x80000000) : toSigned (UInt32.ofNat n) = n := by
  change (BitVec.ofNat 32 n).toInt = n
  rw [BitVec.toInt_ofNat']
  exact Int.bmod_eq_of_le (by omega) (by omega)

end Word

theorem Memory.slice_eq_of_words {before after : Memory} {source target count : Nat}
    (readable : source + count ≤ before.words.size) (size : after.words.size = before.words.size)
    (written : target + count ≤ before.words.size)
    (same : ∀ j < count, after.words[target + j]? = before.words[source + j]?) :
    ∃ ws, before.slice source count = .ok ws ∧ after.slice target count = .ok ws := by
  refine ⟨_, slice_ok readable, ?_⟩
  rw [slice_ok (by omega)]
  refine congrArg Except.ok (List.ext_getElem? fun j => ?_)
  simp only [Array.getElem?_toList, Array.getElem?_extract]
  by_cases hj : j < count
  · rw [if_pos (by omega), if_pos (by omega)]
    exact same j hj
  · rw [if_neg (by omega), if_neg (by omega)]

theorem Memory.read_of_getElem? {memory : Memory} {address : Nat} {w : Word}
    (h : memory.words[address]? = some w) : memory.read address = .ok w := by
  obtain ⟨inside, rfl⟩ := Array.getElem?_eq_some_iff.mp h
  rw [read, resolve_natCast, if_pos (Nat.succ_le_of_lt inside)]
  exact congrArg Except.ok (Array.getElem_eq_getD 0).symm

/-- Words written over the locals first do not matter to what is passed. -/
theorem FunctionRecord.Wired.overwritten {f : FunctionRecord} {argc : Nat}
    {before between after : Memory} (h : f.Wired false argc between after) (apart : f.Apart)
    (size : between.words.size = before.words.size)
    (words : ∀ a, between.words[a]? =
      if f.start.toNat ≤ a ∧ a < f.start.toNat + f.locals.toNat then some Machine.deadbeef
      else before.words[a]?) : f.Wired true argc before after := by
  have unread : ∀ a, f.Reads a → between.words[a]? = before.words[a]? := by
    intro a read
    rw [words, if_neg (by have := (apart a read).1; omega)]
  constructor
  case fixed =>
    intro i hi
    obtain ⟨ws, read, written⟩ := h.fixed i hi
    refine ⟨ws, (Memory.slice_congr size fun w low high => ?_).symm.trans read, written⟩
    exact unread _ (.fixed i hi (by omega) (by omega))
  case slots =>
    intro variadic
    obtain ⟨ws, read, written⟩ := h.slots variadic
    refine ⟨ws, (Memory.slice_congr size fun w low high => ?_).symm.trans read, written⟩
    exact unread _ (.further variadic (by omega) (by omega))
  case count => exact h.count
  case address => exact h.address
  case poisoned =>
    intro _ a low high
    rw [h.kept a (.inr low) (absurd · Bool.false_ne_true), words, if_pos (by omega)]
  case kept =>
    intro a outside overwritten
    have := overwritten rfl
    rw [h.kept a outside (absurd · Bool.false_ne_true), words, if_neg (by omega)]

theorem Action.putWord_ok {address : Nat} {w : Word} {st st' : Store}
    (h : putWord address w st = (.ok (), st')) :
    st'.memory.words.size = st.memory.words.size ∧ st'.memory.words[address]? = some w ∧
      ∀ a, a ≠ address → st'.memory.words[a]? = st.memory.words[a]? := by
  have size := (put_alike address [w] st).size
  rw [show put address [w] st = _ from h] at size
  obtain ⟨-, words⟩ := put_ok h
  refine ⟨size, ?_, fun a other => ?_⟩
  · rw [words, List.length_singleton, if_pos (by omega), Nat.sub_self, List.getElem?_cons_zero]
  · rw [words, List.length_singleton, if_neg (by omega)]

namespace Machine

/-- Arguments are copied one behind another. A word of an argument that lies among those written by then
is found as it was written, and every other as it was at first. -/
theorem passFixed_words {target argument : Nat} {sizes : List Nat} {next : Int} {st st' : Store}
    (h : passFixed target argument sizes st = (.ok next, st')) :
    next = (target + sizes.sum : Nat) ∧ st'.memory.words.size = st.memory.words.size ∧
      (∀ i (h : i < sizes.length),
        Address.argument (argument + i) + sizes[i] ≤ st.memory.words.size ∧
        target + (sizes.take i).sum + sizes[i] ≤ st.memory.words.size ∧
        ∀ j < sizes[i], st'.memory.words[target + (sizes.take i).sum + j]? =
          if target ≤ Address.argument (argument + i) + j ∧
              Address.argument (argument + i) + j < target + (sizes.take i).sum
            then st'.memory.words[Address.argument (argument + i) + j]?
            else st.memory.words[Address.argument (argument + i) + j]?) ∧
      ∀ a, (a < target ∨ target + sizes.sum ≤ a) → st'.memory.words[a]? = st.memory.words[a]? := by
  induction sizes generalizing target argument st with
  | nil =>
    cases h
    exact ⟨rfl, rfl, fun i h => absurd h (Nat.not_lt_zero i), fun a _ => rfl⟩
  | cons width rest ih =>
    obtain ⟨_, st₁, copied, passed⟩ := Action.ok_of_bind h
    have size := (Action.copy_alike (Address.argument argument) target width st).size
    rw [copied] at size
    obtain ⟨readable, writable, words⟩ := Action.copy_ok copied
    rw [← Int.natCast_add] at passed
    obtain ⟨rfl, size', placed, kept⟩ := ih passed
    have size : st₁.memory.words.size = st.memory.words.size := size
    rw [size] at size' placed
    rw [List.sum_cons]
    refine ⟨by rw [Nat.add_assoc], size', ?_, ?_⟩
    · intro i hi
      cases i with
      | zero =>
        refine ⟨readable, writable, fun j hj => ?_⟩
        have hj : j < width := hj
        rw [List.take_zero, List.sum_nil, Nat.add_zero, Nat.add_zero, kept _ (.inl (by omega)), words,
          if_pos (by omega), if_neg (by omega), Nat.add_sub_cancel_left]
      | succ i =>
        have hi : i < rest.length := Nat.lt_of_succ_lt_succ hi
        obtain ⟨readable', writable', same⟩ := placed i hi
        rw [show argument + (i + 1) = argument + 1 + i by omega, List.take_succ_cons, List.sum_cons,
          List.getElem_cons_succ, ← Nat.add_assoc]
        refine ⟨readable', writable', fun j hj => (same j hj).trans ?_⟩
        -- the first argument has been written by then, and no later one writes there
        by_cases first : target ≤ Address.argument (argument + 1 + i) + j ∧
            Address.argument (argument + 1 + i) + j < target + width
        · rw [if_neg (by omega), if_pos (by omega), kept _ (.inl first.2)]
        · rw [words, if_neg first]
          split
          · rw [if_pos (by omega)]
          · rw [if_neg (by omega)]
    · intro a outside
      rw [kept a (by omega), words, if_neg (by omega)]

theorem passFixed_ok {target argument : Nat} {sizes : List Nat} {next : Int} {st st' : Store}
    (apart : ∀ i (h : i < sizes.length), ∀ a, Address.argument (argument + i) ≤ a →
      a < Address.argument (argument + i) + sizes[i] → a < target ∨ target + sizes.sum ≤ a)
    (h : passFixed target argument sizes st = (.ok next, st')) :
    next = (target + sizes.sum : Nat) ∧ st'.memory.words.size = st.memory.words.size ∧
      (∀ i (h : i < sizes.length),
        Address.argument (argument + i) + sizes[i] ≤ st.memory.words.size ∧
        target + (sizes.take i).sum + sizes[i] ≤ st.memory.words.size ∧
        ∀ j < sizes[i], st'.memory.words[target + (sizes.take i).sum + j]? =
          st.memory.words[Address.argument (argument + i) + j]?) ∧
      ∀ a, (a < target ∨ target + sizes.sum ≤ a) → st'.memory.words[a]? = st.memory.words[a]? := by
  obtain ⟨end_eq, size, placed, kept⟩ := passFixed_words h
  refine ⟨end_eq, size, fun i hi => ?_, kept⟩
  obtain ⟨readable, writable, words⟩ := placed i hi
  refine ⟨readable, writable, fun j hj => (words j hj).trans (if_neg ?_)⟩
  have outside := apart i hi (Address.argument (argument + i) + j) (by omega) (by omega)
  have part := sum_take_le hi
  omega

section passed
variable {f : FunctionRecord} {argc : Nat} {st st' : Store} (apart : f.Apart)
include apart

/-- The parameters of a function are placed, and further arguments come behind them. -/
theorem passFixed_of_apart {next : Int}
    (h : passFixed f.start.toNat 0 f.fixedSizes st = (.ok next, st')) :
    next = f.furtherStart ∧ st'.memory.words.size = st.memory.words.size ∧
      (∀ i (h : i < f.fixedSizes.length),
        Address.argument i + f.fixedSizes[i] ≤ st.memory.words.size ∧
        f.start.toNat + (f.fixedSizes.take i).sum + f.fixedSizes[i] ≤ st.memory.words.size ∧
        ∀ j < f.fixedSizes[i],
          st'.memory.words[f.start.toNat + (f.fixedSizes.take i).sum + j]? =
            st.memory.words[Address.argument i + j]?) ∧
      ∀ a, (a < f.start.toNat ∨ f.furtherStart ≤ a) →
        st'.memory.words[a]? = st.memory.words[a]? := by
  have span : f.start.toNat + f.fixedSizes.sum ≤ _ := f.furtherStart_le
  have passed := passFixed_ok (fun i hi a low high => by
    rw [Nat.zero_add] at low high
    have := (apart a (.fixed i hi low high)).2
    omega) h
  simp only [Nat.zero_add] at passed
  exact passed

/-- Behind the parameters of a variadic function stand the number of further arguments, their
address and their slots. -/
theorem passFurther_of_apart (variadic : f.isVariadic = true)
    (h : passFurther f argc f.furtherStart st = (.ok (), st')) :
    Address.argument f.fixedCount + f.slotWords ≤ st.memory.words.size ∧
      f.furtherStart + 2 + f.slotWords ≤ st.memory.words.size ∧
      st'.memory.words[f.furtherStart]? = some (UInt32.ofNat (argc - f.fixedCount)) ∧
      st'.memory.words[f.furtherStart + 1]? = some (UInt32.ofNat (f.furtherStart + 2)) ∧
      (∀ j < f.slotWords, st'.memory.words[f.furtherStart + 2 + j]? =
        st.memory.words[Address.argument f.fixedCount + j]?) ∧
      ∀ a, (a < f.furtherStart ∨ f.start.toNat + f.argumentSpan ≤ a) →
        st'.memory.words[a]? = st.memory.words[a]? := by
  obtain ⟨_, st₁, counted, h⟩ := Action.ok_of_bind h
  obtain ⟨_, st₂, addressed, copied⟩ := Action.ok_of_bind h
  obtain ⟨size₁, count, kept₁⟩ := Action.putWord_ok counted
  have addressed : Action.putWord (f.furtherStart + 1 : Nat) (Word.ofSigned (f.furtherStart + 2))
      st₁ = (.ok (), st₂) := addressed
  have copied : Action.copy (Address.argument f.fixedCount) (f.furtherStart + 2 : Nat) f.slotWords
      st₂ = (.ok (), st') := copied
  obtain ⟨size₂, address, kept₂⟩ := Action.putWord_ok addressed
  obtain ⟨readable, writable, slots⟩ := Action.copy_ok copied
  rw [size₂, size₁] at readable writable
  have span := f.argumentSpan_of_variadic variadic
  have start : f.start.toNat ≤ f.furtherStart := Nat.le_add_right _ _
  refine ⟨readable, writable, ?_, ?_, fun j hj => ?_, fun a outside => ?_⟩
  · rw [slots, if_neg (by omega), kept₂ _ (by omega), count]
  · rw [slots, if_neg (by omega), address]
    exact congrArg some (Word.ofSigned_natCast (f.furtherStart + 2))
  · have := (apart _ (.further variadic (Nat.le_add_right _ j) (by omega))).2
    rw [slots, if_pos (by omega), Nat.add_sub_cancel_left, kept₂ _ (by omega), kept₁ _ (by omega)]
  · rw [slots, if_neg (by omega), kept₂ _ (by omega), kept₁ _ (by omega)]

theorem passed_ok (few : argc < 0x80000000)
    (h : (do let target ← passFixed f.start.toNat 0 f.fixedSizes
             if f.isVariadic then passFurther f argc target : Action Unit) st = (.ok (), st')) :
    f.Wired false argc st.memory st'.memory := by
  obtain ⟨next, st₁, passed, h⟩ := Action.ok_of_bind h
  obtain ⟨rfl, size, placed, kept⟩ := passFixed_of_apart apart passed
  have further (variadic : f.isVariadic = true) := by
    rw [if_pos variadic] at h
    exact passFurther_of_apart apart variadic h
  have size' : st'.memory.words.size = st.memory.words.size := by
    have alike := (passFurther_alike f argc f.furtherStart st₁).size
    split at h
    · rw [show passFurther f argc f.furtherStart st₁ = _ from h] at alike
      exact alike.trans size
    · cases h
      exact size
  have behind : ∀ a, (a < f.furtherStart ∨ f.start.toNat + f.argumentSpan ≤ a) →
      st'.memory.words[a]? = st₁.memory.words[a]? := by
    intro a outside
    by_cases variadic : f.isVariadic = true
    · obtain ⟨-, -, -, -, -, same⟩ := further variadic
      exact same a outside
    · rw [if_neg variadic] at h
      cases h
      rfl
  have start : f.start.toNat ≤ f.furtherStart := Nat.le_add_right _ _
  have span := f.furtherStart_le
  constructor
  case fixed =>
    intro i hi
    obtain ⟨readable, writable, same⟩ := placed i hi
    refine Memory.slice_eq_of_words readable size' writable fun j hj => ?_
    have := f.fixedSizes_take_le hi
    rw [behind _ (.inl (by omega)), same j hj]
  case count =>
    intro variadic
    obtain ⟨-, -, count, -⟩ := further variadic
    exact ⟨_, Memory.read_of_getElem? count, Word.toSigned_ofNat (by omega)⟩
  case address =>
    intro variadic
    obtain ⟨-, -, -, address, -⟩ := further variadic
    exact Memory.read_of_getElem? address
  case slots =>
    intro variadic
    obtain ⟨readable, writable, -, -, same, -⟩ := further variadic
    rw [size] at readable writable
    refine Memory.slice_eq_of_words readable size' writable fun j hj => ?_
    have := (apart _ (.further variadic (Nat.le_add_right _ j) (by omega))).2
    rw [same j hj, kept _ (by omega)]
  case poisoned => exact (absurd · Bool.false_ne_true)
  case kept =>
    intro a outside _
    rw [behind a (by omega), kept a (by omega)]

end passed

theorem passArguments_ok {poison : Bool} {f : FunctionRecord} {argc : Nat} {st st' : Store}
    (apart : f.Apart) (few : argc < 0x80000000)
    (h : passArguments poison f argc st = (.ok (), st')) :
    f.Wired poison argc st.memory st'.memory := by
  unfold passArguments at h
  cases poison with
  | false => exact passed_ok apart few h
  | true =>
    obtain ⟨_, st₁, overwritten, passed⟩ := Action.ok_of_bind h
    have size := (Action.put_alike f.start.toNat (List.replicate f.locals.toNat deadbeef) st).size
    rw [show Action.put _ _ st = _ from overwritten] at size
    obtain ⟨-, words⟩ := Action.put_ok overwritten
    refine (passed_ok apart few passed).overwritten apart size fun a => (words a).trans ?_
    rw [List.length_replicate]
    split
    · rw [List.getElem?_replicate, if_pos (by omega)]
    · rfl

/-- A function that is entered finds its arguments. -/
theorem enter_wires {v v' : Machine} {m : Module} {number first : Nat} {f : FunctionRecord}
    (found : m.function? number = some f) (apart : f.Apart) (few : v.argc < 0x80000000)
    (entered : v.enter m number = (.ok first, v')) :
    f.Wired v.settings.deadbeefLocals v.argc v.store.memory v'.store.memory := by
  unfold enter at entered
  cases ha : v.admission m number with
  | error e =>
    rw [ha] at entered
    cases entered
  | ok g =>
    obtain ⟨found', -⟩ := admission_ok ha
    obtain rfl := Option.some.inj (found'.symm.trans found)
    rw [ha] at entered
    simp only [act_eq] at entered
    obtain ⟨result, rfl⟩ := Prod.mk.inj entered
    have passed : (passArguments v.settings.deadbeefLocals g v.argc v.store).1 = .ok () := by
      cases hp : (passArguments v.settings.deadbeefLocals g v.argc v.store).1 with
      | error e =>
        rw [show (passArguments v.settings.deadbeefLocals g v.argc _).1 = _ from hp] at result
        cases result
      | ok answer => rfl
    exact passArguments_ok apart few (Prod.ext passed rfl)

end Machine

/-- Parameters of at most three words that are placed behind the argument slots are apart from
them. -/
theorem FunctionRecord.apart_of_behind {f : FunctionRecord}
    (behind : Address.reserved ≤ f.start.toNat)
    (narrow : ∀ size ∈ f.fixedSizes, size ≤ Address.argumentWords) : f.Apart := by
  have few : f.fixedCount ≤ maxParameters := Nat.min_le_right _ _
  intro a read
  have reserved : a < Address.reserved := by
    cases read with
    | fixed i hi low high =>
      have width := narrow _ (List.getElem_mem hi)
      rw [length_fixedSizes] at hi
      unfold Address.argument Address.reserved Address.argumentWords maxParameters at *
      omega
    | further variadic low high =>
      unfold Address.argument slotWords Address.reserved Address.argumentWords maxParameters at *
      omega
  omega

/-- A function of a number, a vector and any further arguments, and six words of locals. -/
def variadicBuilder : Builder := .built
  [.reserveWords 30, .addVariadic "say" "" 1 28 [1, 3] 30,
    .pushStatements [⟨Opcode.done.code, 0, 0, 0⟩]]

theorem variadic_loads :
    (Machine.load variadicBuilder.bytes 0 0 { deadbeefLocals := true }).toOption.isSome := by
  decide +kernel

def variadic : Machine :=
  { (Machine.load variadicBuilder.bytes 0 0 { deadbeefLocals := true }).toOption.get
      variadic_loads with
    argc := 4
    store := ⟨⟨(Array.range 60).map UInt32.ofNat⟩, .ofTable #[]⟩ }

theorem variadic_wired :
    ∃ f, variadic.program.function? 1 = some f ∧ f.Apart ∧ variadic.argc < 0x80000000 ∧
      ∃ first v', variadic.enter variadic.program 1 = (.ok first, v') ∧
        f.Wired true 4 variadic.store.memory v'.store.memory := by
  obtain ⟨found, enters, poisons⟩ : variadic.program.function? 1 = some
        ⟨1, 28, 30, 0, 1, 0, -3, #v[1, 3, 0, 0, 0, 0, 0, 0]⟩ ∧
      (variadic.enter variadic.program 1).1.toOption.isSome ∧
      variadic.settings.deadbeefLocals = true := by decide +kernel
  have apart := FunctionRecord.apart_of_behind
    (f := ⟨1, 28, 30, 0, 1, 0, -3, #v[1, 3, 0, 0, 0, 0, 0, 0]⟩) (by decide) (by decide)
  cases entered : variadic.enter variadic.program 1 with
  | mk result v' =>
    rw [entered] at enters
    cases result with
    | error e => cases enters
    | ok first =>
      have wired := Machine.enter_wires found apart (by decide) entered
      rw [poisons] at wired
      exact ⟨_, found, apart, by decide, first, v', rfl, wired⟩

end GameBytecode
