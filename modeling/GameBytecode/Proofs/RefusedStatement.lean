import GameBytecode.Proofs.StatementFrame

/-!
What a statement that fails has changed. Nothing, for all but two opcodes. Joining strings makes the
new string before it looks where its reference is to go; and of the fields that a state sets, those
before the one that is refused stay set.
-/
namespace GameBytecode

/-- Goes on with a value, if there is one, from a store. -/
def Store.after {α β : Type} (st : Store) (x : Except Fault α)
    (f : α → Except Fault β × Store) : Except Fault β × Store :=
  match x with
  | .error e => (.error e, st)
  | .ok a => f a

theorem Store.after_bind {α β γ : Type} (st : Store) (x : Except Fault α) (g : α → Except Fault β)
    (f : β → Except Fault γ × Store) :
    st.after (x >>= g) f = st.after x fun a => st.after (g a) f := by
  cases x <;> rfl

/-- A failure comes from the value, and then nothing has been done, or from what follows. -/
theorem Store.after_error {α β : Type} {st st' : Store} {x : Except Fault α}
    {f : α → Except Fault β × Store} {e : Fault} (h : st.after x f = (.error e, st')) :
    st' = st ∨ ∃ a, x = .ok a ∧ f a = (.error e, st') := by
  cases x with
  | error e' =>
    cases h
    exact .inl rfl
  | ok a => exact .inr ⟨a, rfl, h⟩

theorem Store.after_ok {α β : Type} {st st' : Store} {x : Except Fault α}
    {f : α → Except Fault β × Store} {b : β} (h : st.after x f = (.ok b, st')) :
    ∃ a, x = .ok a ∧ f a = (.ok b, st') := by
  cases x with
  | error e => cases h
  | ok a => exact ⟨a, rfl, h⟩

/-- The entity that a statement sets the state of, and the fields it sets, in order. -/
structure Schedule where
  entity : Int
  fields : List (Nat × Word)
deriving DecidableEq, Repr

namespace Module

/-- What a statement of state is about to do, once it has read all that it needs. -/
def schedule (m : Module) (s : Statement) (memory : Memory) : Except Fault Schedule := do
  let bound (name : String) (address : Option Nat) : Except Fault Nat :=
    address.elim (.error (.missingBinding name)) .ok
  let self ← bound "self" m.bindings.self
  let time ← bound "time" m.bindings.time
  let nextThink ← bound "nextthink" m.bindings.nextThink
  let frame ← bound "frame" m.bindings.frame
  let think ← bound "think" m.bindings.think
  let entity ← memory.read self
  let now ← memory.read time
  let number ← memory.read s.a.toNat
  let function ← memory.read s.b.toNat
  return ⟨Word.toSigned entity,
    [(nextThink, Single.add now frameTime), (frame, number), (think, function)]⟩

def assign (m : Module) (bounds : Bool) (entity : Int) (memory : Memory) (x : Nat × Word) :
    Except Fault Memory := do
  memory.write (← entityAddress m.layout bounds entity x.1 1) x.2

/-- Sets fields in order up to the first that is refused. -/
def assignAll (m : Module) (bounds : Bool) (entity : Int) :
    List (Nat × Word) → Store → Except Fault Control × Store
  | [], st => (.ok .next, st)
  | x :: rest, st =>
    st.after (m.assign bounds entity st.memory x) fun memory =>
      assignAll m bounds entity rest ⟨memory, st.strings⟩

/-- A refused field leaves those before it set. -/
theorem assignAll_error_iff {m : Module} {bounds : Bool} {entity : Int}
    {fields : List (Nat × Word)} {st st' : Store} {e : Fault} :
    m.assignAll bounds entity fields st = (.error e, st') ↔
      ∃ before next rest memory, fields = before ++ next :: rest ∧
        before.foldlM (m.assign bounds entity) st.memory = .ok memory ∧
        m.assign bounds entity memory next = .error e ∧ st' = ⟨memory, st.strings⟩ := by
  induction fields generalizing st with
  | nil =>
    constructor
    · intro h
      cases h
    · rintro ⟨before, next, rest, memory, split, -⟩
      cases before <;> cases split
  | cons x fields ih =>
    rw [assignAll]
    constructor
    · cases hx : m.assign bounds entity st.memory x with
      | error e' =>
        intro h
        cases h
        exact ⟨[], x, fields, _, rfl, rfl, hx, rfl⟩
      | ok set =>
        intro h
        obtain ⟨before, next, rest, memory, rfl, folded, refused, rfl⟩ := ih.mp h
        refine ⟨x :: before, next, rest, memory, rfl, ?_, refused, rfl⟩
        rw [List.foldlM_cons, hx]
        exact folded
    · rintro ⟨before, next, rest, memory, split, folded, refused, rfl⟩
      cases before with
      | nil =>
        cases split
        cases folded
        rw [refused]
        rfl
      | cons y before =>
        cases split
        rw [List.foldlM_cons] at folded
        obtain ⟨set, hx, folded⟩ := ok_of_bind folded
        rw [hx]
        exact ih.mpr ⟨before, next, rest, memory, rfl, folded, refused, rfl⟩

end Module

/-- What a statement that fails has changed all the same. -/
inductive Leftover (bounds : Bool) (m : Module) (s : Statement) (st : Store) (e : Fault) :
    Store → Prop
  /-- The joined string is there, and there is no place for its reference. -/
  | joined {left right : Word} {joined : StringRef} {strings : StringArena}
      (op : Opcode.ofCode? s.op = some .concat)
      (hleft : st.memory.read s.a.toNat = .ok left)
      (hright : st.memory.read s.b.toNat = .ok right)
      (made : st.strings.concat left.toInt32 right.toInt32 = .ok (joined, strings))
      (refused : st.memory.resolve s.c.toNat 1 = .error e) : Leftover bounds m s st e ⟨st.memory, strings⟩
  /-- Some fields are set, and the next is refused. -/
  | assigned {entity : Int} {first next : Nat × Word} {before rest : List (Nat × Word)}
      {memory : Memory}
      (op : Opcode.ofCode? s.op = some .state)
      (schedule : m.schedule s st.memory = .ok ⟨entity, first :: before ++ next :: rest⟩)
      (set : (first :: before).foldlM (m.assign bounds entity) st.memory = .ok memory)
      (refused : m.assign bounds entity memory next = .error e) :
      Leftover bounds m s st e ⟨memory, st.strings⟩

namespace Plan
variable {α : Type} (s : Statement) (st : Store)

theorem run_word_bind (place : Place) (f : Word → Plan α) :
    (word place >>= f).run s st =
      st.after (st.memory.read (place.address s)) fun w => (f w).run s st := by
  rw [Memory.read_eq]
  simp only [word, read_bind, run]
  cases st.memory.slice (place.address s) 1 <;> rfl

theorem run_integer_bind (place : Place) (f : Int → Plan α) :
    (integer place >>= f).run s st =
      st.after (st.memory.read (place.address s)) fun w => (f (Word.toSigned w)).run s st :=
  run_word_bind s st place fun w => f (Word.toSigned w)

theorem run_reference_bind (place : Place) (f : StringRef → Plan α) :
    (reference place >>= f).run s st =
      st.after (st.memory.read (place.address s)) fun w => (f w.toInt32).run s st :=
  run_word_bind s st place fun w => f w.toInt32

theorem run_binding_bind (name : String) (address : Option Nat) (f : Nat → Plan α) :
    (Step.binding name address >>= f).run s st =
      st.after (address.elim (.error (.missingBinding name)) .ok) fun a => (f a).run s st := by
  cases address <;> rfl

theorem run_join (r t : StringRef) (place : Place) (k : Plan α) :
    (join r t >>= fun joined => write place [joined.toUInt32] k).run s st =
      st.after (st.strings.concat r t) fun joined =>
        (write place [joined.1.toUInt32] k).run s ⟨st.memory, joined.2⟩ := by
  obtain ⟨memory, strings⟩ := st
  simp only [join, concat_bind, done_bind, run]
  cases strings.concat r t <;> rfl

theorem run_assign (m : Module) (bounds : Bool) (entity : Int) (field : Nat) (w : Word)
    (k : Plan α) :
    (ofExcept (entityAddress m.layout bounds entity field 1) >>= fun address =>
      write (.found address) [w] k).run s st =
    st.after (m.assign bounds entity st.memory (field, w)) fun memory =>
      k.run s ⟨memory, st.strings⟩ := by
  obtain ⟨memory, strings⟩ := st
  unfold Module.assign
  cases entityAddress m.layout bounds entity field 1 with
  | error e => rfl
  | ok address =>
    change (write (.found address) [w] k).run s ⟨memory, strings⟩ =
      Store.after ⟨memory, strings⟩ (memory.write address w) _
    simp only [run, Memory.write, Place.address, List.length_singleton]
    cases memory.resolve address 1 <;> rfl

end Plan

section statement
variable {settings : Settings} {m : Module} {index : Nat} {s : Statement} {st st' : Store} {e : Fault}

/-- Setting a state is reading what it needs and then setting three fields. -/
theorem Step.run_state (settings : Settings) (m : Module) (index : Nat) (s : Statement)
    (st : Store) :
    (effect settings m index s .state).run s st =
      st.after (m.schedule s st.memory) fun x =>
        m.assignAll settings.boundsCheck x.entity x.fields st := by
  simp only [effect, Module.schedule, Plan.run_binding_bind, Plan.run_integer_bind,
    Plan.run_word_bind, Store.after_bind, Plan.lift_eq, Plan.pure_eq, Plan.putWord, Plan.put,
    Plan.write_bind, Plan.done_bind, Plan.run_assign]
  rfl

theorem Step.run_concat (settings : Settings) (m : Module) (index : Nat) (s : Statement)
    (st : Store) :
    (effect settings m index s .concat).run s st =
      st.after (st.memory.read s.a.toNat) fun left =>
        st.after (st.memory.read s.b.toNat) fun right =>
          st.after (st.strings.concat left.toInt32 right.toInt32) fun joined =>
            (Plan.write .c [joined.1.toUInt32] (.done Control.next)).run s
              ⟨st.memory, joined.2⟩ := by
  simp only [effect, Plan.run_reference_bind, Plan.putWord, Plan.put, Plan.write_bind,
    Plan.done_bind, Plan.pure_eq, Plan.run_join]
  rfl

theorem step_concat_error (op : Opcode.ofCode? s.op = some .concat)
    (h : step settings m index s st = (.error e, st')) :
    st' = st ∨ Leftover settings.boundsCheck m s st e st' := by
  unfold step at h
  rw [op] at h
  dsimp only at h
  rw [Step.run_concat] at h
  rcases Store.after_error h with unchanged | ⟨left, hleft, h⟩
  · exact .inl unchanged
  rcases Store.after_error h with unchanged | ⟨right, hright, h⟩
  · exact .inl unchanged
  rcases Store.after_error h with unchanged | ⟨⟨joined, strings⟩, made, h⟩
  · exact .inl unchanged
  simp only [Plan.run] at h
  split at h
  · rename_i e' refused
    cases h
    exact .inr (.joined op hleft hright made refused)
  · cases h

theorem step_state_error (op : Opcode.ofCode? s.op = some .state)
    (h : step settings m index s st = (.error e, st')) :
    st' = st ∨ Leftover settings.boundsCheck m s st e st' := by
  unfold step at h
  rw [op] at h
  dsimp only at h
  rw [Step.run_state] at h
  rcases Store.after_error h with unchanged | ⟨⟨entity, fields⟩, schedule, h⟩
  · exact .inl unchanged
  obtain ⟨before, next, rest, memory, rfl, set, refused, rfl⟩ := Module.assignAll_error_iff.mp h
  cases before with
  | nil =>
    cases set
    exact .inl rfl
  | cons first before => exact .inr (.assigned op schedule set refused)

/-- A statement that fails has changed nothing, or leaves something behind. -/
theorem step_error (h : step settings m index s st = (.error e, st')) :
    st' = st ∨ Leftover settings.boundsCheck m s st e st' := by
  by_cases joins : Opcode.ofCode? s.op = some .concat
  · exact step_concat_error joins h
  · by_cases sets : Opcode.ofCode? s.op = some .state
    · exact step_state_error sets h
    · have unchanged : ∀ e', (step settings m index s st).1 = .error e' →
          (step settings m index s st).2 = st := (step_final joins sets st).2
      rw [h] at unchanged
      exact .inl (unchanged e rfl)

theorem Leftover.step_eq (h : Leftover settings.boundsCheck m s st e st') :
    step settings m index s st = (.error e, st') := by
  unfold step
  cases h with
  | joined op hleft hright made refused =>
    rw [op]
    dsimp only
    rw [Step.run_concat, hleft]
    dsimp only [Store.after]
    rw [hright]
    dsimp only
    rw [made]
    dsimp only
    simp only [Plan.run]
    split
    · rename_i e' refused'
      cases refused.symm.trans refused'
      rfl
    · rename_i i resolved
      cases refused.symm.trans resolved
  | assigned op schedule set refused =>
    rw [op]
    dsimp only
    rw [Step.run_state, schedule]
    exact Module.assignAll_error_iff.mpr ⟨_, _, _, _, rfl, set, refused, rfl⟩

/-- A statement that fails leaves the machine as it was, or with a joined string, or with fields of a
state that come before the one refused; and it does the latter two whenever it can. -/
theorem Machine.refused_statement (v v' : Machine) (settings : Settings) (m : Module) (index : Nat)
    (s : Statement) (e : Fault) :
    (v.act (step settings m index s) = (.error e, v') →
      v' = v ∨ ∃ st, Leftover settings.boundsCheck m s v.store e st ∧ v' = v.setStore st) ∧
    ∀ st, Leftover settings.boundsCheck m s v.store e st →
      v.act (step settings m index s) = (.error e, v.setStore st) := by
  constructor
  · intro h
    rw [act_eq] at h
    cases hr : step settings m index s v.store with
    | mk result st =>
      rw [hr] at h
      cases h
      rcases step_error hr with rfl | leftover
      · exact .inl rfl
      · exact .inr ⟨st, leftover, rfl⟩
  · intro st leftover
    rw [act_eq, leftover.step_eq]

end statement

/-- A module whose self is entity 4. The fields that a state sets are the first three of an entity. -/
def strayBuilder : Builder := .built
  [.addGlobal "self" (.entity 4), .addGlobal "time" (.float 0x3f800000),
    .addGlobal "number" (.float 0x40a00000), .addGlobal "thinker" (.function 1),
    .addField "nextthink" .float, .addField "frame" .float, .addField "think" .function]

theorem stray_loads : (Machine.load strayBuilder.bytes 4 4 {}).toOption.isSome := by decide +kernel

def stray : Machine := (Machine.load strayBuilder.bytes 4 4 {}).toOption.get stray_loads

def setState : Statement := ⟨Opcode.state.code, 30, 31, 0⟩

/-- The empty string twice, with no room for the result. -/
def joinNowhere : Statement := ⟨Opcode.concat.code, 0, 0, 60000⟩

/-- The memory with two fields of the state set. -/
def strayHalf : Memory :=
  ⟨(stray.store.memory.words.setIfInBounds 48 0x3f8ccccd).setIfInBounds 49 0x40a00000⟩

theorem stray_leaves :
    stray.act (step {} stray.program 1 setState) =
        (.error (.invalidGlobal 50), stray.setStore ⟨strayHalf, stray.store.strings⟩) ∧
      stray.act (step {} stray.program 1 joinNowhere) =
        (.error (.invalidGlobal 60000),
          stray.setStore ⟨stray.store.memory, (stray.store.strings.push []).2⟩) := by
  obtain ⟨sets, schedule, set, refused⟩ :
      Opcode.ofCode? setState.op = some .state ∧
        stray.program.schedule setState stray.store.memory =
          .ok ⟨4, [(0, 0x3f8ccccd)] ++ [(1, 0x40a00000)] ++ (2, 1) :: []⟩ ∧
        ([(0, 0x3f8ccccd), (1, 0x40a00000)] : List (Nat × Word)).foldlM
          (stray.program.assign false 4) stray.store.memory = .ok strayHalf ∧
        stray.program.assign false 4 strayHalf (2, 1) = .error (.invalidGlobal 50) := by
    decide +kernel
  obtain ⟨joins, left, right, made, nowhere⟩ :
      Opcode.ofCode? joinNowhere.op = some .concat ∧
        stray.store.memory.read joinNowhere.a.toNat = .ok 0 ∧
        stray.store.memory.read joinNowhere.b.toNat = .ok 0 ∧
        stray.store.strings.concat (0 : Word).toInt32 (0 : Word).toInt32 =
          .ok ((stray.store.strings.push []).1, (stray.store.strings.push []).2) ∧
        stray.store.memory.resolve joinNowhere.c.toNat 1 = .error (.invalidGlobal 60000) := by
    decide +kernel
  constructor
  · exact (Machine.refused_statement stray stray {} stray.program 1 setState _).2 _
      (.assigned sets schedule set refused)
  · exact (Machine.refused_statement stray stray {} stray.program 1 joinNowhere _).2 _
      (.joined joins left right made nowhere)

/-- Both statements fail, and the first has changed the memory and the second the strings. -/
theorem stray_changes :
    (∃ e v', stray.act (step {} stray.program 1 setState) = (.error e, v') ∧
      v'.store.memory ≠ stray.store.memory) ∧
    ∃ e v', stray.act (step {} stray.program 1 joinNowhere) = (.error e, v') ∧
      v'.store.strings ≠ stray.store.strings := by
  obtain ⟨fails, set, fails', joined⟩ :
      (step {} stray.program 1 setState stray.store).1 = .error (.invalidGlobal 50) ∧
        (step {} stray.program 1 setState stray.store).2.memory ≠ stray.store.memory ∧
        (step {} stray.program 1 joinNowhere stray.store).1 = .error (.invalidGlobal 60000) ∧
        (step {} stray.program 1 joinNowhere stray.store).2.strings ≠ stray.store.strings := by
    decide +kernel
  constructor
  · refine ⟨.invalidGlobal 50, stray.setStore (step {} stray.program 1 setState stray.store).2,
      ?_, ?_⟩
    · rw [Machine.act_eq, fails]
    · rw [Machine.setStore_store]
      exact set
  · refine ⟨.invalidGlobal 60000,
      stray.setStore (step {} stray.program 1 joinNowhere stray.store).2, ?_, ?_⟩
    · rw [Machine.act_eq, fails']
    · rw [Machine.setStore_store]
      exact joined

end GameBytecode
