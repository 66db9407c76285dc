import GameBytecode.Proofs.OperandReadings
import GameBytecode.Proofs.RefusedStatement

/-!
Ways to name the words of a value. A statement that copies a value finds it at an operand, at a field of
an entity, or at a pointer with or without a distance. Whenever it succeeds, the same is done by taking
the address first and going through the pointer then, although addresses are computed in 32 bits here
and in 64 bits there, and checked with the width of the value here and without there.
-/
namespace GameBytecode

/-- How a statement that copies a value names the words that are not at a plain operand. -/
inductive Mode where
  /-- A load from a field of an entity. -/
  | field
  /-- A store to an operand. -/
  | operand
  /-- A store through a pointer. -/
  | pointer
  /-- A load through a pointer, at a distance that is in memory. -/
  | loadAt
  /-- A load through a pointer, at a distance that is an operand. -/
  | loadNear
  /-- A store through a pointer, at a distance that is in memory. -/
  | storeAt
  /-- A store through a pointer, at a distance that is an operand. -/
  | storeNear
deriving DecidableEq, Repr

/-- Where words are copied from and to. -/
structure Route where
  source : Int
  target : Int

/-- A word of memory as a signed number. -/
def Memory.signed (memory : Memory) (address : Int) : Except Fault Int :=
  (memory.read address).map Word.toSigned

theorem Memory.signed_ok {memory : Memory} {address i : Int} (h : memory.signed address = .ok i) :
    ∃ w, memory.read address = .ok w ∧ Word.toSigned w = i := ok_of_map h

namespace Mode

def opcode (cell : Cell) : Mode → Opcode
  | field => .load cell
  | operand => .store cell
  | pointer => .storeThrough cell
  | loadAt => .loadAt cell
  | loadNear => .loadNear cell
  | storeAt => .storeAt cell
  | storeNear => .storeNear cell

/-- The address that is computed, for what is in memory. -/
def address (m : Module) (bounds : Bool) (s : Statement) (cell : Cell) (memory : Memory) :
    Mode → Except Fault Int
  | field => do
    let entity ← memory.signed s.a.toNat
    let field ← memory.signed s.b.toNat
    entityAddress m.layout bounds entity field cell.width
  | operand => return s.b.toNat
  | pointer => memory.signed s.b.toNat
  | loadAt => do
    let pointer ← memory.signed s.a.toNat
    let offset ← memory.signed s.b.toNat
    return pointer + offset
  | loadNear => do
    let pointer ← memory.signed s.a.toNat
    return pointer + signedOperand s.b
  | storeAt => do
    let pointer ← memory.signed s.b.toNat
    let offset ← memory.signed s.c.toNat
    return pointer + offset
  | storeNear => do
    let pointer ← memory.signed s.b.toNat
    return pointer + signedOperand s.c

/-- The words that are copied, for the address. -/
def route (s : Statement) (mode : Mode) (address : Int) : Route :=
  match mode with
  | field | loadAt | loadNear => ⟨address, s.c.toNat⟩
  | operand | pointer | storeAt | storeNear => ⟨s.a.toNat, address⟩

end Mode

def Route.Covers (r : Route) (width w : Nat) : Prop :=
  (r.source ≤ w ∧ w < r.source + width) ∨ (r.target ≤ w ∧ w < r.target + width)

/-- A memory with words copied along a route. -/
def Memory.along (memory : Memory) (r : Route) (width : Nat) : Except Fault Memory :=
  memory.copy r.source r.target width

namespace Plan
variable {s : Statement} {st : Store} {width : Nat} {route : Int → Route}

/-- A plan that computes an address, copies a number of words and goes on. -/
structure Copies (s : Statement) (st : Store) (width : Nat) (route : Int → Route)
    (address : Except Fault Int) (p : Plan Control) : Prop where
  run : p.run s st = st.after address fun i =>
    st.after (st.memory.along (route i) width) fun memory => (.ok .next, ⟨memory, st.strings⟩)
  touches : ∀ i memory, address = .ok i → st.memory.along (route i) width = .ok memory →
    ∀ w, (route i).Covers width w → ∃ x ∈ p.accesses s st, x.Touches s w

theorem Copies.copy (source target : Place) {i : Int}
    (ends : route i = ⟨source.address s, target.address s⟩) :
    (Plan.copy source target width >>= fun _ => pure .next).Copies s st width route (pure i) := by
  obtain ⟨memory, strings⟩ := st
  have body : (Plan.copy source target width >>= fun _ => pure Control.next) =
      .read source width fun ws => .write target ws (.done .next) := rfl
  rw [body]
  cases hs : memory.slice (source.address s) width with
  | error e =>
    constructor
    · simp only [Plan.run, Store.after, pure, Except.pure, ends, Memory.along, Memory.copy, hs]
    · rintro _ after ⟨⟩ copied
      simp only [ends, Memory.along, Memory.copy, hs] at copied
      cases copied
  | ok ws =>
    constructor
    · simp only [Plan.run, Store.after, pure, Except.pure, ends, Memory.along, Memory.copy,
        Memory.writeSlice, hs]
      cases memory.resolve (target.address s) ws.length <;> rfl
    · rintro _ after ⟨⟩ - w covered
      rw [ends] at covered
      simp only [Plan.accesses, hs]
      rcases covered with read | written
      · exact ⟨⟨source, width⟩, List.mem_cons_self, read⟩
      · refine ⟨⟨target, ws.length⟩, List.mem_cons_of_mem _ List.mem_cons_self, ?_⟩
        rw [Memory.length_slice hs]
        exact written

theorem Copies.integer (place : Place) {address : Int → Except Fault Int}
    {f : Int → Plan Control} (h : ∀ i, (f i).Copies s st width route (address i)) :
    (Plan.integer place >>= f).Copies s st width route
      (st.memory.signed (place.address s) >>= address) := by
  cases hr : st.memory.read (place.address s) with
  | error e =>
    rw [Memory.signed, hr]
    refine ⟨?_, fun i memory found => by cases found⟩
    rw [run_integer_bind, hr]
    rfl
  | ok x =>
    obtain ⟨ws, hs, rfl⟩ := Memory.slice_of_read hr
    have later := h (Word.toSigned (ws.headD 0))
    rw [Memory.signed, hr]
    constructor
    · rw [run_integer_bind, hr]
      exact later.run
    · intro i memory found copied w covered
      obtain ⟨x, hx, touched⟩ := later.touches i memory found copied w covered
      refine ⟨x, ?_, touched⟩
      simp only [Plan.integer, Plan.word, read_bind, done_bind, pure_eq, Plan.accesses, hs]
      exact List.mem_cons_of_mem _ hx

theorem Copies.lift {x : Except Fault Int} {f : Int → Plan Control}
    (h : ∀ i, (f i).Copies s st width route (pure i)) :
    ((liftM x : Plan Int) >>= f).Copies s st width route x := by
  cases x with
  | error e => exact ⟨rfl, fun i memory found => by cases found⟩
  | ok i => exact h i

end Plan

/-- What a statement that copies a value does. -/
theorem Step.copies (settings : Settings) (m : Module) (index : Nat) (s : Statement) (st : Store)
    (cell : Cell) (mode : Mode) :
    (effect settings m index s (mode.opcode cell)).Copies s st cell.width (mode.route s)
      (mode.address m settings.boundsCheck s cell st.memory) := by
  cases mode <;> simp only [Mode.opcode, effect, Mode.address]
  case field =>
    exact .integer .a fun entity => .integer .b fun field => .lift fun address =>
      .copy (.found address) .c rfl
  case operand => exact .copy .a .b rfl
  case pointer =>
    rw [← bind_pure (st.memory.signed s.b.toNat)]
    exact .integer .b fun pointer => .copy .a (.found pointer) rfl
  case loadAt =>
    exact .integer .a fun pointer => .integer .b fun offset =>
      .copy (.found (pointer + offset)) .c rfl
  case loadNear =>
    exact .integer .a fun pointer => .copy (.found (pointer + signedOperand s.b)) .c rfl
  case storeAt =>
    exact .integer .b fun pointer => .integer .c fun offset =>
      .copy .a (.found (pointer + offset)) rfl
  case storeNear =>
    exact .integer .b fun pointer => .copy .a (.found (pointer + signedOperand s.c)) rfl

namespace Word

theorem ofSigned_toSigned (w : Word) : ofSigned (toSigned w) = w := by
  rw [ofSigned, toSigned, Int32.ofInt_toInt]
  exact UInt32.toUInt32_toInt32 w

theorem ofSigned_add (i j : Int) : ofSigned (i + j) = ofSigned i + ofSigned j := by
  rw [ofSigned, Int32.ofInt_add, Int32.toUInt32_add]
  rfl

theorem toSigned_ofSigned {i : Int} (low : -0x80000000 ≤ i) (high : i < 0x80000000) :
    toSigned (ofSigned i) = i := by
  rw [toSigned, ofSigned, Int32.toInt32_toUInt32]
  exact Int32.toInt_ofInt_of_le low high

end Word

namespace Memory
variable {memory after : Memory} {source target : Int} {count t : Nat}

def set (memory : Memory) (t : Nat) (x : Word) : Memory := ⟨memory.words.setIfInBounds t x⟩

@[simp] theorem size_set (x : Word) : (memory.set t x).words.size = memory.words.size :=
  Array.size_setIfInBounds

theorem getElem?_set_ne {w : Nat} (ne : t ≠ w) (x : Word) :
    (memory.set t x).words[w]? = memory.words[w]? :=
  Array.getElem?_setIfInBounds_ne ne

theorem signed_set (inside : t < memory.words.size) (x : Word) :
    (memory.set t x).signed t = .ok (Word.toSigned x) := by
  have there : (memory.set t x).words[t]? = some x :=
    Array.getElem?_setIfInBounds_self_of_lt inside
  rw [signed, read_of_getElem? there]
  rfl

theorem write_natCast (inside : t < memory.words.size) (x : Word) :
    memory.write t x = .ok (memory.set t x) := by
  simp only [write, resolve_natCast, if_pos (Nat.succ_le_of_lt inside)]
  rfl

theorem copy_ok (copied : memory.copy source target count = .ok after) :
    0 ≤ source ∧ source + count ≤ memory.words.size ∧
      0 ≤ target ∧ target + count ≤ memory.words.size ∧
      ∃ ws, ws.length = count ∧ memory.slice source count = .ok ws ∧
        after = ⟨setWords memory.words target.toNat ws⟩ := by
  unfold copy at copied
  cases hs : memory.slice source count with
  | error e =>
    rw [hs] at copied
    cases copied
  | ok ws =>
    have length := length_slice hs
    obtain ⟨low, high⟩ := slice_inside hs
    simp only [hs, writeSlice, length] at copied
    cases written : memory.resolve target count with
    | error e =>
      rw [written] at copied
      cases copied
    | ok i =>
      rw [written] at copied
      cases copied
      obtain ⟨low', rfl, high'⟩ := resolve_ok written
      exact ⟨low, high, low', by omega, ws, length, rfl, rfl⟩

theorem setWords_set {words : Array Word} {index : Nat} {ws : List Word}
    (inside : index + ws.length ≤ words.size) (outside : ¬ (index ≤ t ∧ t < index + ws.length))
    (x : Word) :
    setWords (words.setIfInBounds t x) index ws = (setWords words index ws).setIfInBounds t x := by
  apply Array.ext_getElem?
  intro w
  rw [getElem?_setWords _ _ _ _ (by rw [Array.size_setIfInBounds]; exact inside)]
  by_cases here : t = w
  · subst here
    rw [if_neg outside, Array.getElem?_setIfInBounds_self, Array.getElem?_setIfInBounds_self,
      size_setWords]
  · rw [Array.getElem?_setIfInBounds_ne here, Array.getElem?_setIfInBounds_ne here,
      getElem?_setWords _ _ _ _ inside]

theorem along_set {r : Route} (copied : memory.along r count = .ok after)
    (apart : ¬ r.Covers count t) (x : Word) :
    (memory.set t x).along r count = .ok (after.set t x) := by
  obtain ⟨low, high, low', high', ws, length, hs, rfl⟩ := copy_ok copied
  have same : (memory.set t x).slice r.source count = .ok ws := by
    rw [← hs]
    refine slice_congr (size_set x) fun w below above => getElem?_set_ne ?_ x
    rintro rfl
    exact apart (.inl ⟨below, above⟩)
  have resolved : (memory.set t x).resolve r.target count = .ok r.target.toNat := by
    rw [resolve_congr (size_set x)]
    unfold resolve size
    rw [if_neg (by omega)]
  have fits : r.target.toNat + ws.length ≤ memory.words.size := by omega
  have outside : ¬ (r.target.toNat ≤ t ∧ t < r.target.toNat + ws.length) := by
    rintro ⟨below, above⟩
    exact apart (.inr ⟨by omega, by omega⟩)
  simp only [along, copy, same, writeSlice, length, resolved]
  exact congrArg (fun words => Except.ok (Memory.mk words)) (setWords_set fits outside x)

end Memory

namespace Mode

def taking (cell : Cell) : Mode → Opcode
  | field => .fieldAddress
  | operand => .address cell
  | loadAt | storeAt => .advance
  | pointer | loadNear | storeNear => .advanceNear

/-- How the words are reached by their address. -/
def onward : Mode → Mode
  | field | loadAt | loadNear => loadNear
  | operand | pointer | storeAt | storeNear => pointer

/-- The statement that takes the address into a slot. What stands where an opcode takes no operand is
free. -/
def first (cell : Cell) (s : Statement) (slot free : UInt16) (mode : Mode) : Statement :=
  let code := (mode.taking cell).code
  match mode with
  | field | loadAt | loadNear => ⟨code, s.a, s.b, slot⟩
  | operand => ⟨code, s.b, free, slot⟩
  | pointer => ⟨code, s.b, 0, slot⟩
  | storeAt | storeNear => ⟨code, s.b, s.c, slot⟩

/-- The statement that copies the value through the slot. -/
def second (cell : Cell) (s : Statement) (slot free : UInt16) (mode : Mode) : Statement :=
  let code := (mode.onward.opcode cell).code
  match mode with
  | field | loadAt | loadNear => ⟨code, slot, 0, s.c⟩
  | operand | pointer | storeAt | storeNear => ⟨code, s.a, slot, free⟩

/-- The address of a field of entity 0 is not taken if that entity is guarded. -/
def Barred (settings : Settings) (s : Statement) (memory : Memory) (mode : Mode) : Prop :=
  mode = field ∧ settings.boundsCheck = true ∧ settings.nullBad = true ∧
    memory.signed s.a.toNat = .ok 0

variable {m : Module} {cell : Cell} {s : Statement} {slot free : UInt16} {mode : Mode}

theorem taking_code (cell : Cell) (mode : Mode) :
    Opcode.ofCode? (mode.taking cell).code = some (mode.taking cell) := by
  have field : Opcode.ofCode? Opcode.fieldAddress.code = some .fieldAddress := by decide +kernel
  have far : Opcode.ofCode? Opcode.advance.code = some .advance := by decide +kernel
  have near : Opcode.ofCode? Opcode.advanceNear.code = some .advanceNear := by decide +kernel
  cases mode with
  | field => exact field
  | operand => cases cell <;> decide +kernel
  | loadAt | storeAt => exact far
  | pointer | loadNear | storeNear => exact near

theorem onward_code (cell : Cell) (mode : Mode) :
    Opcode.ofCode? (mode.onward.opcode cell).code = some (mode.onward.opcode cell) := by
  have load : Opcode.ofCode? (Opcode.loadNear cell).code = some (.loadNear cell) := by
    cases cell <;> decide +kernel
  have store : Opcode.ofCode? (Opcode.storeThrough cell).code = some (.storeThrough cell) := by
    cases cell <;> decide +kernel
  cases mode with
  | field | loadAt | loadNear => exact load
  | operand | pointer | storeAt | storeNear => exact store

theorem first_opcode :
    Opcode.ofCode? (mode.first cell s slot free).op = some (mode.taking cell) := by
  rw [← taking_code cell mode]
  cases mode <;> rfl

theorem second_opcode :
    Opcode.ofCode? (mode.second cell s slot free).op = some (mode.onward.opcode cell) := by
  rw [← onward_code cell mode]
  cases mode <;> rfl

theorem route_second (address : Int) :
    mode.onward.route (mode.second cell s slot free) address = mode.route s address := by
  cases mode <;> rfl

theorem address_second {memory : Memory} {bounds : Bool} {address : Int}
    (taken : memory.signed slot.toNat = .ok address) :
    mode.onward.address m bounds (mode.second cell s slot free) cell memory = .ok address := by
  cases mode with
  | field | loadAt | loadNear =>
    change (memory.signed slot.toNat >>= fun pointer => pure (pointer + signedOperand 0)) = _
    rw [taken]
    exact congrArg Except.ok (Int.add_zero address)
  | operand | pointer | storeAt | storeNear =>
    exact taken

end Mode

theorem entityAddress_one {l : Layout} {bounds : Bool} {entity field address : Int} {width : Nat}
    (positive : 0 < width) (h : entityAddress l bounds entity field width = .ok address) :
    entityAddress l bounds entity field 1 = .ok address := by
  cases bounds with
  | false => exact h
  | true =>
    obtain ⟨there, wide, found⟩ := entityAddress_ok h
    have narrow : l.hasField field 1 = true := by
      simp only [Layout.hasField, Bool.and_eq_true, decide_eq_true_eq] at wide ⊢
      omega
    simp only [entityAddress, there, narrow, Bool.not_true, Bool.and_false, Bool.false_eq_true,
      if_false, found]

namespace Step
variable {settings : Settings} {m : Module} {s : Statement} {st : Store}

/-- A statement that writes a word to its third operand and goes on. -/
def Takes (settings : Settings) (m : Module) (s : Statement) (st : Store) (w : Word) : Prop :=
  ∀ index, step settings m index s st =
    st.after (st.memory.write s.c.toNat w) fun memory => (.ok .next, ⟨memory, st.strings⟩)

theorem run_putWord (s : Statement) (st : Store) (w : Word) :
    (Plan.putWord .c w >>= fun _ => pure Control.next).run s st =
      st.after (st.memory.write s.c.toNat w) fun memory => (.ok .next, ⟨memory, st.strings⟩) := by
  obtain ⟨memory, strings⟩ := st
  change (Plan.write .c [w] (.done Control.next)).run s ⟨memory, strings⟩ = _
  simp only [Plan.run, Memory.write, List.length_singleton]
  rw [show Place.c.address s = s.c.toNat from rfl]
  cases memory.resolve s.c.toNat 1 <;> rfl

theorem takes_advance {pointer offset : Int} (opcode : Opcode.ofCode? s.op = some .advance)
    (hp : st.memory.signed s.a.toNat = .ok pointer) (ho : st.memory.signed s.b.toNat = .ok offset) :
    Takes settings m s st (Word.ofSigned (pointer + offset)) := by
  intro index
  obtain ⟨x, hx, rfl⟩ := Memory.signed_ok hp
  obtain ⟨y, hy, rfl⟩ := Memory.signed_ok ho
  rw [Word.ofSigned_add, Word.ofSigned_toSigned, Word.ofSigned_toSigned]
  simp only [step, opcode, effect, Plan.run_word_bind, run_putWord, Place.address, Statement.slot,
    hx, hy, Store.after]

theorem takes_advanceNear {pointer : Int} (opcode : Opcode.ofCode? s.op = some .advanceNear)
    (hp : st.memory.signed s.a.toNat = .ok pointer) :
    Takes settings m s st (Word.ofSigned (pointer + signedOperand s.b)) := by
  intro index
  obtain ⟨x, hx, rfl⟩ := Memory.signed_ok hp
  rw [Word.ofSigned_add, Word.ofSigned_toSigned]
  simp only [step, opcode, effect, Plan.run_word_bind, run_putWord, Place.address, Statement.slot,
    hx, Store.after]

theorem takes_address {cell : Cell} (opcode : Opcode.ofCode? s.op = some (.address cell)) :
    Takes settings m s st (Word.ofSigned s.a.toNat) := by
  intro index
  have same : Word.ofSigned s.a.toNat = s.a.toUInt32 := by
    rw [Word.ofSigned_natCast]
    exact UInt32.ofNat_uInt16ToNat s.a
  rw [same]
  simp only [step, opcode, effect, run_putWord]

theorem takes_fieldAddress {entity field address : Int}
    (opcode : Opcode.ofCode? s.op = some .fieldAddress)
    (he : st.memory.signed s.a.toNat = .ok entity) (hf : st.memory.signed s.b.toNat = .ok field)
    (found : entityAddress m.layout settings.boundsCheck entity field 1 = .ok address)
    (low : -0x80000000 ≤ address) (high : address < 0x80000000)
    (free : (settings.boundsCheck && settings.nullBad && entity == 0) = false) :
    Takes settings m s st (Word.ofSigned address) := by
  intro index
  obtain ⟨x, hx, rfl⟩ := Memory.signed_ok he
  obtain ⟨y, hy, rfl⟩ := Memory.signed_ok hf
  have inside : ¬ (address < -0x80000000 ∨ 0x80000000 ≤ address) := by omega
  simp only [step, opcode, effect, Plan.run_integer_bind, Place.address, Statement.slot, hx, hy,
    Store.after, free, found, Plan.lift_eq, Plan.ofExcept, Plan.done_bind, if_neg inside,
    Bool.false_eq_true, if_false, run_putWord]

/-- The address of a field of a guarded entity is not taken. -/
theorem fieldAddress_refused {field : Int} (index : Nat)
    (opcode : Opcode.ofCode? s.op = some .fieldAddress) (bounds : settings.boundsCheck = true)
    (guarded : settings.nullBad = true) (he : st.memory.signed s.a.toNat = .ok 0)
    (hf : st.memory.signed s.b.toNat = .ok field) :
    step settings m index s st = (.error .worldAssignment, st) := by
  obtain ⟨x, hx, zero⟩ := Memory.signed_ok he
  obtain ⟨y, hy, rfl⟩ := Memory.signed_ok hf
  simp only [step, opcode, effect, Plan.run_integer_bind, Place.address, Statement.slot, hx, hy,
    Store.after, bounds, guarded, zero, Bool.and_self, BEq.rfl, if_true, Plan.fail_bind, Plan.run]

variable {cell : Cell} {mode : Mode} {address : Int}

/-- The first statement of a way round takes the address that the statement computes. -/
theorem takes_first (slot free : UInt16)
    (found : mode.address m settings.boundsCheck s cell st.memory = .ok address)
    (low : -0x80000000 ≤ address) (high : address < 0x80000000)
    (unbarred : ¬ mode.Barred settings s st.memory) :
    Takes settings m (mode.first cell s slot free) st (Word.ofSigned address) := by
  have opcode : Opcode.ofCode? (mode.first cell s slot free).op = some (mode.taking cell) :=
    mode.first_opcode
  cases mode <;> simp only [Mode.first, Mode.taking] at opcode ⊢
  case field =>
    obtain ⟨entity, he, found⟩ := ok_of_bind found
    obtain ⟨field, hf, found⟩ := ok_of_bind found
    refine takes_fieldAddress opcode he hf (entityAddress_one ?_ found) low high ?_
    · cases cell <;> decide
    · cases guard : settings.boundsCheck && settings.nullBad && entity == 0 with
      | false => rfl
      | true =>
        simp only [Bool.and_eq_true, beq_iff_eq] at guard
        obtain ⟨⟨bounds, guarded⟩, rfl⟩ := guard
        exact absurd ⟨rfl, bounds, guarded, he⟩ unbarred
  case operand =>
    cases found
    exact takes_address opcode
  case pointer =>
    rw [← Int.add_zero address]
    exact takes_advanceNear opcode found
  case loadAt | storeAt =>
    obtain ⟨pointer, hp, found⟩ := ok_of_bind found
    obtain ⟨offset, ho, found⟩ := ok_of_bind found
    cases found
    exact takes_advance opcode hp ho
  case loadNear | storeNear =>
    obtain ⟨pointer, hp, found⟩ := ok_of_bind found
    cases found
    exact takes_advanceNear opcode hp

theorem first_ok {w : Word} {slot free : UInt16} (inside : slot.toNat < st.memory.words.size)
    (takes : Takes settings m (mode.first cell s slot free) st w) (index : Nat) :
    step settings m index (mode.first cell s slot free) st =
      (.ok .next, ⟨st.memory.set slot.toNat w, st.strings⟩) := by
  have target : (mode.first cell s slot free).c = slot := by cases mode <;> rfl
  rw [takes index, target, Memory.write_natCast inside]
  rfl

/-- The second statement of a way round copies what the statement copies. -/
theorem second_ok {memory : Memory} {slot : UInt16} (index : Nat) (free : UInt16)
    (taken : st.memory.signed slot.toNat = .ok address)
    (copied : st.memory.along (mode.route s address) cell.width = .ok memory) :
    step settings m index (mode.second cell s slot free) st = (.ok .next, ⟨memory, st.strings⟩) := by
  have copies := copies settings m index (mode.second cell s slot free) st cell mode.onward
  rw [mode.address_second taken] at copies
  unfold step
  rw [mode.second_opcode]
  refine copies.run.trans ?_
  rw [Store.after, mode.route_second, copied]
  rfl

end Step

theorem Mode.inside_of_along {mode : Mode} {s : Statement} {memory after : Memory} {address : Int}
    {width : Nat} (copied : memory.along (mode.route s address) width = .ok after) :
    0 ≤ address ∧ address ≤ memory.words.size := by
  obtain ⟨low, high, low', high', -⟩ := Memory.copy_ok copied
  cases mode with
  | field | loadAt | loadNear =>
    exact ⟨low, Int.le_trans (Int.le_add_of_nonneg_right (by omega)) high⟩
  | operand | pointer | storeAt | storeNear =>
    exact ⟨low', Int.le_trans (Int.le_add_of_nonneg_right (by omega)) high'⟩

/-- A statement that copies a value succeeds only if taking the address into any word that it does not
touch, and copying through that word, do as well and leave the same, that word apart. The one exception
is a field of entity 0 while that entity is guarded: it can be read, but its address is not taken. -/
theorem addressing_modes_agree {image : Text.Bytes} {capacity heapBytes : Nat} {m : Module}
    (loaded : Image.load image capacity heapBytes = .ok m) {settings : Settings} {s : Statement}
    {st st' : Store} {control : Control} {index : Nat} (mode : Mode) (cell : Cell)
    (opcode : Opcode.ofCode? s.op = some (mode.opcode cell))
    (size : st.memory.words.size = m.layout.total)
    (direct : step settings m index s st = (.ok control, st')) (slot free : UInt16)
    (inside : slot.toNat < st.memory.words.size)
    (apart : ∀ x ∈ s.accesses settings m index st, ¬ x.Touches s slot.toNat) :
    control = .next ∧
    (¬ mode.Barred settings s st.memory → ∃ x,
      (∀ i, step settings m i (mode.first cell s slot free) st =
        (.ok .next, ⟨st.memory.set slot.toNat x, st.strings⟩)) ∧
      ∀ i, step settings m i (mode.second cell s slot free)
          ⟨st.memory.set slot.toNat x, st.strings⟩ =
        (.ok .next, ⟨st'.memory.set slot.toNat x, st'.strings⟩)) ∧
    (mode.Barred settings s st.memory → ∀ i,
      step settings m i (mode.first cell s slot free) st = (.error .worldAssignment, st)) := by
  have copies := Step.copies settings m index s st cell mode
  obtain ⟨address, found, ended⟩ : ∃ address,
      mode.address m settings.boundsCheck s cell st.memory = .ok address ∧
      (st.after (st.memory.along (mode.route s address) cell.width) fun memory =>
        (.ok .next, ⟨memory, st.strings⟩)) = (.ok control, st') := by
    simp only [step, opcode, copies.run] at direct
    exact Store.after_ok direct
  obtain ⟨memory, copied, ended⟩ := Store.after_ok ended
  cases ended
  -- An address of words that are copied is inside memory, where 32 bits are enough for it.
  have small : m.layout.total ≤ 0x7fffffff :=
    (Layout.make_ok (Image.load_layout loaded)).2.2.2.2.2.2
  obtain ⟨low, high⟩ := Mode.inside_of_along copied
  have away : ¬ (mode.route s address).Covers cell.width slot.toNat := by
    intro covered
    obtain ⟨x, hx, touched⟩ := copies.touches address memory found copied _ covered
    refine apart x ?_ touched
    unfold Statement.accesses
    rw [opcode]
    exact List.mem_append_left _ hx
  refine ⟨rfl, fun unbarred => ⟨Word.ofSigned address, fun i => ?_, fun i => ?_⟩, ?_⟩
  · exact Step.first_ok inside (Step.takes_first slot free found (by omega) (by omega) unbarred) i
  · have taken :
        (st.memory.set slot.toNat (Word.ofSigned address)).signed slot.toNat = .ok address := by
      rw [Memory.signed_set inside, Word.toSigned_ofSigned (by omega) (by omega)]
    exact Step.second_ok i free taken (Memory.along_set copied away _)
  · rintro ⟨rfl, bounds, guarded, world⟩ i
    obtain ⟨entity, -, found⟩ := ok_of_bind found
    obtain ⟨field, hf, -⟩ := ok_of_bind found
    exact Step.fieldAddress_refused i Mode.first_opcode bounds guarded world hf

/-- A load of the vector of entity 3. -/
def loadOrigin : Statement := ⟨(Opcode.load .vector).code, 28, 29, 31⟩

/-- The vector is loaded as well on the way round through global 34. -/
theorem loadOrigin_agrees : ∃ x st',
    step { boundsCheck := true } residents.program 1 loadOrigin residents.store =
      (.ok .next, st') ∧
    step { boundsCheck := true } residents.program 1 (Mode.field.first .vector loadOrigin 34 0)
        residents.store =
      (.ok .next, ⟨residents.store.memory.set 34 x, residents.store.strings⟩) ∧
    step { boundsCheck := true } residents.program 2 (Mode.field.second .vector loadOrigin 34 0)
        ⟨residents.store.memory.set 34 x, residents.store.strings⟩ =
      (.ok .next, ⟨st'.memory.set 34 x, st'.strings⟩) := by
  have machine : Machine.load residentsBuilder.bytes 4 10 { boundsCheck := true } = .ok residents :=
    Session.eq_ok_get residents_loads
  have loaded := (Machine.load_ok machine).1.1
  have housed := Machine.housed_of_load machine
  obtain ⟨opcode, goes, entity, inside, apart⟩ :
      Opcode.ofCode? loadOrigin.op = some (Mode.field.opcode .vector) ∧
      (step { boundsCheck := true } residents.program 1 loadOrigin residents.store).1 = .ok .next ∧
      residents.store.memory.signed loadOrigin.a.toNat ≠ .ok 0 ∧
      (34 : UInt16).toNat < residents.store.memory.words.size ∧
      ∀ x ∈ loadOrigin.accesses { boundsCheck := true } residents.program 1 residents.store,
        ¬ (x.place.address loadOrigin ≤ (34 : UInt16).toNat ∧
          (34 : UInt16).toNat < x.place.address loadOrigin + x.count) := by
    decide +kernel
  generalize residents = v at *
  cases direct : step { boundsCheck := true } v.program 1 loadOrigin v.store with
  | mk result st' =>
  rw [direct] at goes
  cases goes
  obtain ⟨-, detour, -⟩ := addressing_modes_agree loaded .field .vector opcode housed.size direct
    34 0 inside apart
  obtain ⟨x, first, second⟩ := detour fun barred => entity barred.2.2.2
  exact ⟨x, st', rfl, first 1, second 2⟩

end GameBytecode
