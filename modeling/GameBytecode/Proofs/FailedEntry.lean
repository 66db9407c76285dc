import GameBytecode.Proofs.BuilderHistory
import GameBytecode.Proofs.EnterLeave
import GameBytecode.Proofs.MachineChange

/-!
What entering a function that fails has changed. The checks that come first look at the locals of the
function, and its parameters can be wider than these: a function that passes the checks fails if its
arguments come from words, or go to words, that memory does not have. By then a frame has been pushed.
-/
namespace GameBytecode

/-- The words that arguments are copied from, and those that they are copied to, are words of a memory
of a size. -/
structure FunctionRecord.Passable (f : FunctionRecord) (size : Nat) : Prop where
  fixed : ∀ i (h : i < f.fixedSizes.length), Address.argument i + f.fixedSizes[i] ≤ size ∧
    f.start.toNat + (f.fixedSizes.take i).sum + f.fixedSizes[i] ≤ size
  further : f.isVariadic = true → Address.argument f.fixedCount + f.slotWords ≤ size ∧
    f.furtherStart + 2 + f.slotWords ≤ size

namespace Action
variable {α β : Type} {size : Nat} {P Q : Prop}

/-- On every memory of a size the action has an answer if a condition is met, and is refused a word
otherwise. -/
def Needs (size : Nat) (P : Prop) (a : Action α) (x : α) : Prop :=
  ∀ st : Store, st.memory.words.size = size →
    (P → (a st).1 = .ok x) ∧ (¬ P → ∃ address, (a st).1 = .error (.invalidGlobal address))

theorem Needs.pure (x : α) : Needs size True (Pure.pure x : Action α) x :=
  fun _ _ => ⟨fun _ => rfl, fun h => absurd trivial h⟩

theorem Needs.congr {a : Action α} {x : α} (h : Needs size P a x) (same : P ↔ Q) :
    Needs size Q a x := propext same ▸ h

theorem Needs.bind {a : Action α} {f : α → Action β} {x : α} {y : β} (ha : Needs size P a x)
    (alike : ∀ st, Store.Alike st (a st).2) (hf : Needs size Q (f x) y) :
    Needs size (P ∧ Q) (a >>= f) y := by
  intro st hs
  obtain ⟨answers, refused⟩ := ha st hs
  change (P ∧ Q → (ExceptT.bindCont f (a st).1 (a st).2).1 = _) ∧
    (¬ (P ∧ Q) → ∃ address, (ExceptT.bindCont f (a st).1 (a st).2).1 = _)
  by_cases met : P
  · rw [answers met]
    obtain ⟨answers', refused'⟩ := hf (a st).2 ((alike st).size.trans hs)
    exact ⟨fun h => answers' h.2, fun h => refused' fun hq => h ⟨met, hq⟩⟩
  · obtain ⟨address, failed⟩ := refused met
    rw [failed]
    exact ⟨fun h => absurd h.1 met, fun _ => ⟨address, rfl⟩⟩

theorem put_needs (address : Nat) (ws : List Word) :
    Needs size (address + ws.length ≤ size) (put address ws) () := by
  rintro ⟨memory, strings⟩ rfl
  simp only [put, Memory.resolve_natCast]
  constructor
  · intro inside
    rw [if_pos inside]
  · intro outside
    rw [if_neg outside]
    exact ⟨address, rfl⟩

theorem copy_needs (source target count : Nat) :
    Needs size (source + count ≤ size ∧ target + count ≤ size) (copy source target count) () := by
  intro st hs
  have written (ws : List Word) := @put_needs size target ws st hs
  change (_ → (ExceptT.bindCont (put target) (st.memory.slice source count) st).1 = _) ∧
    (_ → ∃ address, (ExceptT.bindCont (put target) (st.memory.slice source count) st).1 = _)
  by_cases readable : source + count ≤ size
  · rw [Memory.slice_ok (by rw [hs]; exact readable)]
    have length : (st.memory.words.extract source (source + count)).toList.length = count := by
      rw [Array.length_toList, Array.size_extract]
      omega
    obtain ⟨answers, refused⟩ := written (st.memory.words.extract source (source + count)).toList
    rw [length] at answers refused
    exact ⟨fun h => answers h.2, fun h => refused fun writable => h ⟨readable, writable⟩⟩
  · refine ⟨fun h => absurd h.1 readable, fun _ => ⟨source, ?_⟩⟩
    rw [Memory.slice, Memory.resolve_natCast, hs, if_neg readable]
    rfl

end Action

namespace Machine
variable {size : Nat}

theorem passFixed_needs (target argument : Nat) (sizes : List Nat) :
    Action.Needs size (∀ i (h : i < sizes.length),
        Address.argument (argument + i) + sizes[i] ≤ size ∧
          target + (sizes.take i).sum + sizes[i] ≤ size)
      (passFixed target argument sizes) ((target + sizes.sum : Nat) : Int) := by
  induction sizes generalizing target argument with
  | nil => exact (Action.Needs.pure _).congr (iff_of_true trivial fun i h => absurd h (Nat.not_lt_zero i))
  | cons width rest ih =>
    have later := ih (target + width) (argument + 1)
    rw [Nat.add_assoc, ← List.sum_cons, Int.natCast_add] at later
    refine ((Action.copy_needs (Address.argument argument) target width).bind
      (Action.copy_alike _ _ _) later).congr ?_
    constructor
    · rintro ⟨first, others⟩ i hi
      cases i with
      | zero => exact first
      | succ i =>
        have := others i (Nat.lt_of_succ_lt_succ hi)
        simp only [List.getElem_cons_succ, List.take_succ_cons, List.sum_cons]
        rw [Nat.add_comm i 1, ← Nat.add_assoc, ← Nat.add_assoc]
        exact this
    · intro all
      refine ⟨all 0 (Nat.zero_lt_succ _), fun i hi => ?_⟩
      have := all (i + 1) (Nat.succ_lt_succ hi)
      simp only [List.getElem_cons_succ, List.take_succ_cons, List.sum_cons] at this
      rw [Nat.add_comm i 1, ← Nat.add_assoc, ← Nat.add_assoc] at this
      exact this

/-- Further arguments are passed if there are the words of their slots, and room for these behind the
number and the address. -/
theorem passFurther_needs (f : FunctionRecord) (argc : Nat) :
    Action.Needs size (Address.argument f.fixedCount + f.slotWords ≤ size ∧
      f.furtherStart + 2 + f.slotWords ≤ size) (passFurther f argc f.furtherStart) () := by
  have counted := @Action.put_needs size f.furtherStart [UInt32.ofNat (argc - f.fixedCount)]
  have addressed := @Action.put_needs size (f.furtherStart + 1)
    [Word.ofSigned (f.furtherStart + 2)]
  have copied := @Action.copy_needs size (Address.argument f.fixedCount)
    (f.furtherStart + 2) f.slotWords
  refine (counted.bind (Action.put_alike _ _) (addressed.bind (Action.put_alike _ _) copied)).congr ?_
  simp only [List.length_singleton]
  omega

/-- The arguments of a function whose locals are in memory are passed if and only if there are the words
for it. -/
theorem passArguments_needs {f : FunctionRecord} (inside : f.start.toNat + f.locals.toNat ≤ size)
    (poison : Bool) (argc : Nat) :
    Action.Needs size (f.Passable size) (passArguments poison f argc) () := by
  have fixed := @passFixed_needs size f.start.toNat 0 f.fixedSizes
  simp only [Nat.zero_add] at fixed
  have further : Action.Needs size (f.isVariadic = true →
      Address.argument f.fixedCount + f.slotWords ≤ size ∧ f.furtherStart + 2 + f.slotWords ≤ size)
      (if f.isVariadic then passFurther f argc f.furtherStart else Pure.pure ()) () := by
    by_cases variadic : f.isVariadic = true
    · rw [if_pos variadic]
      exact (passFurther_needs f argc).congr ⟨fun h _ => h, fun h => h variadic⟩
    · rw [if_neg variadic]
      exact (Action.Needs.pure ()).congr (iff_of_true trivial fun h => absurd h variadic)
  have passed : Action.Needs size (f.Passable size) (do
      let target ← passFixed f.start.toNat 0 f.fixedSizes
      if f.isVariadic then passFurther f argc target : Action Unit) () :=
    (fixed.bind (passFixed_alike _ _ _) further).congr
      ⟨fun h => ⟨h.1, h.2⟩, fun h => ⟨h.fixed, h.further⟩⟩
  unfold passArguments
  cases poison with
  | false => exact passed
  | true =>
    have poisoned := @Action.put_needs size f.start.toNat
      (List.replicate f.locals.toNat deadbeef)
    rw [List.length_replicate] at poisoned
    exact (poisoned.bind (Action.put_alike _ _) passed).congr (and_iff_right inside)

/-- A function that passes every check that comes before its entry, and whose arguments reach outside
memory. -/
structure Overreaches (v : Machine) (m : Module) (number : Nat) (f : FunctionRecord) : Prop where
  found : m.function? number = some f
  positive : 0 < f.entry
  starts : f.entry.toInt.toNat < m.statements.size
  frame : v.control.calls.hasRoom = true
  saved : v.control.saved.hasRoom f.locals.toNat = true
  locals : f.start.toNat + f.locals.toNat ≤ v.store.memory.words.size
  arguments : ¬ f.Passable v.store.memory.words.size

variable {v : Machine} {m : Module} {number : Nat} {f : FunctionRecord}

theorem Overreaches.admission (h : v.Overreaches m number f) : v.admission m number = .ok f := by
  rw [admission_eq h.found h.positive h.starts h.locals, h.frame, h.saved]
  rfl

theorem overreaches_iff :
    v.Overreaches m number f ↔
      v.admission m number = .ok f ∧ ¬ f.Passable v.store.memory.words.size := by
  constructor
  · exact fun h => ⟨h.admission, h.arguments⟩
  · rintro ⟨admitted, arguments⟩
    obtain ⟨found, locals, frame, saved, positive, starts⟩ := admission_ok admitted
    exact ⟨found, positive, starts, frame, saved, locals, arguments⟩

theorem Overreaches.enter_eq (h : v.Overreaches m number f) :
    ∃ address store, v.enter m number = (.error (.invalidGlobal address),
      (v.setControl (v.control.save number (v.store.memory.region f))).setStore store) := by
  obtain ⟨address, refused⟩ :=
    (passArguments_needs h.locals v.settings.deadbeefLocals v.argc v.store rfl).2 h.arguments
  have entered := enter_of_admission h.admission
  rw [refused] at entered
  exact ⟨address, _, entered⟩

/-- An entry that fails has changed nothing, or the arguments of the function reach outside memory. -/
theorem enter_error {e : Fault} {v' : Machine} (h : v.enter m number = (.error e, v')) :
    v' = v ∨ ∃ f, v.Overreaches m number f := by
  cases ha : v.admission m number with
  | error e' =>
    unfold enter at h
    rw [ha] at h
    cases h
    exact .inl rfl
  | ok f =>
    right
    refine ⟨f, overreaches_iff.mpr ⟨ha, fun passable => ?_⟩⟩
    have passed := (passArguments_needs (admission_ok ha).2.1 v.settings.deadbeefLocals v.argc
      v.store rfl).1 passable
    rw [enter_of_admission ha, passed] at h
    cases h

/-- Entering a function that fails leaves memory and calls as they were if and only if the function is
not one whose arguments reach outside memory, and then it leaves everything as it was. Entering one
whose arguments do always fails, and leaves its frame on the calls. -/
theorem failed_entry (v : Machine) (m : Module) (number : Nat) :
    (∀ e v', v.enter m number = (.error e, v') →
      (v'.store.memory = v.store.memory ∧ v'.control = v.control ↔
        ¬ ∃ f, v.Overreaches m number f) ∧
      ((¬ ∃ f, v.Overreaches m number f) → v' = v)) ∧
    ∀ f, v.Overreaches m number f → ∃ address v',
      v.enter m number = (.error (.invalidGlobal address), v') ∧
        v'.control = v.control.save number (v.store.memory.region f) ∧ v'.depth = v.depth + 1 := by
  constructor
  · intro e v' failed
    have unchanged (within : ¬ ∃ f, v.Overreaches m number f) : v' = v :=
      (enter_error failed).resolve_right within
    refine ⟨⟨?_, fun within => ?_⟩, unchanged⟩
    · rintro ⟨-, control⟩ ⟨f, overreaches⟩
      obtain ⟨address, store, entered⟩ := overreaches.enter_eq
      cases failed.symm.trans entered
      have deeper := congrArg (·.calls.depth) control
      exact absurd deeper (Nat.succ_ne_self _)
    · rw [unchanged within]
      exact ⟨rfl, rfl⟩
  · intro f overreaches
    obtain ⟨address, store, entered⟩ := overreaches.enter_eq
    exact ⟨address, _, entered, rfl, rfl⟩

end Machine

/-- A module with one global and a function that takes it for its first parameter. Its second parameter
is longer than memory. -/
def wideBuilder : Builder := .built
  [.addGlobal "x" (.float 0x40e00000), .pushStatements [⟨Opcode.done.code, 0, 0, 0⟩],
    .addFunction "f" "" 1 28 [1, 255] 0]

theorem wide_loads : (Machine.load wideBuilder.bytes 0 0 {}).toOption.isSome := by decide +kernel

def wide : Machine := (Machine.load wideBuilder.bytes 0 0 {}).toOption.get wide_loads

def wideFunction : FunctionRecord :=
  { FunctionRecord.null with
    entry := 1, start := 28, arity := 2, name := 3, sizes := #v[1, 255, 0, 0, 0, 0, 0, 0] }

theorem wide_overreaches : wide.Overreaches wide.program 1 wideFunction := by
  obtain ⟨found, positive, starts, frame, saved, size⟩ :
      wide.program.function? 1 = some wideFunction ∧ 0 < wideFunction.entry ∧
        wideFunction.entry.toInt.toNat < wide.program.statements.size ∧
        wide.control.calls.hasRoom = true ∧
        wide.control.saved.hasRoom wideFunction.locals.toNat = true ∧
        wide.store.memory.words.size = 30 := by decide +kernel
  refine ⟨found, positive, starts, frame, saved, ?_, fun passable => ?_⟩
  · rw [size]
    decide
  · rw [size] at passable
    exact absurd (passable.fixed 1 (by decide)).1 (by decide)

/-- Entering the function fails, and memory and calls are not as they were. -/
theorem wide_fails : wide.Overreaches wide.program 1 wideFunction ∧
    ∃ address v', wide.enter wide.program 1 = (.error (.invalidGlobal address), v') ∧
      v'.depth = wide.depth + 1 ∧
      ¬ (v'.store.memory = wide.store.memory ∧ v'.control = wide.control) := by
  obtain ⟨unchanged, fails⟩ := Machine.failed_entry wide wide.program 1
  obtain ⟨address, v', entered, -, deeper⟩ := fails wideFunction wide_overreaches
  refine ⟨wide_overreaches, address, v', entered, deeper, fun kept => ?_⟩
  exact (unchanged _ v' entered).1.mp kept ⟨wideFunction, wide_overreaches⟩

/-- The entry that fails has changed a word of memory, the frames, and the function that is current. -/
theorem wide_changes : ∃ e v', wide.enter wide.program 1 = (.error e, v') ∧
    v'.store.memory ≠ wide.store.memory ∧ v'.control.calls ≠ wide.control.calls ∧
      v'.control.function ≠ wide.control.function := by
  obtain ⟨address, store, entered⟩ := wide_overreaches.enter_eq
  have changed : (wide.enter wide.program 1).2.store.memory ≠ wide.store.memory ∧
      (wide.enter wide.program 1).2.control.calls ≠ wide.control.calls ∧
      (wide.enter wide.program 1).2.control.function ≠ wide.control.function := by decide +kernel
  rw [entered] at changed
  exact ⟨_, _, entered, changed⟩

end GameBytecode
