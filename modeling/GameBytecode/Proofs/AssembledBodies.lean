import GameBytecode.Assembly
import GameBytecode.Proofs.ControlFlow
import GameBytecode.Proofs.ImageRoundTrip

/-!
The bodies of an assembled module. Functions are declared one after another and then get their bodies
one after another, each of them behind the last; as every body ends in a return, control does not run
from one into the next.
-/
namespace GameBytecode

namespace Assembly

section traversal
variable {ε α β : Type} {f : α → Except ε β} {xs : List α} {ys : List β}

/-- A traversal that succeeds has an answer for every place of the list, and for no other one. -/
theorem place_of_mapM_ok (h : xs.mapM f = .ok ys) (i : Nat) :
    xs[i]? = none ∧ ys[i]? = none ∨ ∃ x y, xs[i]? = some x ∧ ys[i]? = some y ∧ f x = .ok y := by
  induction xs generalizing ys i with
  | nil =>
    cases h
    exact .inl ⟨rfl, rfl⟩
  | cons x xs ih =>
    rw [List.mapM_cons] at h
    obtain ⟨y, hy, h⟩ := ok_of_bind h
    obtain ⟨ys', hys, h⟩ := ok_of_bind h
    cases h
    cases i with
    | zero => exact .inr ⟨x, y, rfl, rfl, hy⟩
    | succ i => exact ih hys i

theorem getElem?_of_mapM_ok (h : xs.mapM f = .ok ys) {i : Nat} {x : α} (hx : xs[i]? = some x) :
    ∃ y, ys[i]? = some y ∧ f x = .ok y := by
  rcases place_of_mapM_ok h i with ⟨absent, -⟩ | ⟨x', y, found, at_place, ok⟩
  · cases absent.symm.trans hx
  · cases found.symm.trans hx
    exact ⟨y, at_place, ok⟩

theorem ok_of_mem_mapM (h : xs.mapM f = .ok ys) {x : α} (hx : x ∈ xs) : ∃ y, f x = .ok y := by
  obtain ⟨i, found⟩ := List.getElem?_of_mem hx
  obtain ⟨y, -, ok⟩ := getElem?_of_mapM_ok h found
  exact ⟨y, ok⟩

theorem mem_of_mapM_ok (h : xs.mapM f = .ok ys) {y : β} (hy : y ∈ ys) :
    ∃ x ∈ xs, f x = .ok y := by
  obtain ⟨i, at_place⟩ := List.getElem?_of_mem hy
  rcases place_of_mapM_ok h i with ⟨-, absent⟩ | ⟨x, y', found, answer, ok⟩
  · cases absent.symm.trans at_place
  · cases answer.symm.trans at_place
    exact ⟨x, List.mem_of_getElem? found, ok⟩

theorem getD_of_mapM_ok (h : xs.mapM f = .ok ys) (i : Nat) (default : β) :
    xs[i]? = none ∧ ys.getD i default = default ∨
      ∃ x, xs[i]? = some x ∧ f x = .ok (ys.getD i default) := by
  rw [List.getD_eq_getElem?_getD]
  rcases place_of_mapM_ok h i with ⟨absent, missing⟩ | ⟨x, y, found, at_place, ok⟩
  · rw [missing]
    exact .inl ⟨absent, rfl⟩
  · rw [at_place]
    exact .inr ⟨x, found, ok⟩

end traversal

theorem foldlM_invariant {ε α β : Type} {f : β → α → Except ε β} {P : β → Prop} {xs : List α}
    {b b' : β} (h : xs.foldlM f b = .ok b') (start : P b)
    (step : ∀ b x b', x ∈ xs → P b → f b x = .ok b' → P b') : P b' := by
  induction xs generalizing b with
  | nil =>
    cases h
    exact start
  | cons x xs ih =>
    rw [List.foldlM_cons] at h
    obtain ⟨b₁, hx, h⟩ := ok_of_bind h
    refine ih h (step b x b₁ List.mem_cons_self start hx) ?_
    exact fun b y b' mem => step b y b' (List.mem_cons_of_mem _ mem)

end Assembly

namespace Builder
variable {b : Builder}

def code (b : Builder) : Code := ⟨b.statements, b.functions⟩

@[simp] theorem addString_code (b : Builder) (text : String) : (b.addString text).2.code = b.code := by
  obtain ⟨strings, interned, h⟩ := b.addString_cases text
  rw [h]
  rfl

@[simp] theorem addDef_code (b : Builder) (name : String) (type : ValueType) (offset : UInt16) :
    (b.addDef name type offset).code = b.code :=
  b.addString_code name

@[simp] theorem reserveWords_code (b : Builder) (count : Nat) :
    (b.reserveWords count).2.code = b.code := rfl

@[simp] theorem addGlobal_code (b : Builder) (name : String) (value : Value) :
    (b.addGlobal name value).2.code = b.code := by
  simp only [addGlobal, addDef_code]
  rfl

@[simp] theorem addField_code (b : Builder) (name : String) (type : ValueType) :
    (b.addField name type).2.code = b.code :=
  b.addString_code name

theorem pushFunction_code (b : Builder) (name file : String) (f : FunctionRecord) :
    (b.pushFunction name file f).1 = b.functions.size ∧ ∃ name' file',
      (b.pushFunction name file f).2.code =
        ⟨b.statements, b.functions.push { f with name := name', file := file' }⟩ := by
  have named := b.addString_code name
  have filed := (b.addString name).2.addString_code file
  rw [named] at filed
  simp only [code, Code.mk.injEq] at filed
  simp only [pushFunction, code, filed, true_and]
  exact ⟨_, _, rfl⟩

theorem load_reproduces {m : Module} {capacity heapBytes : Nat} (small : b.bytes.length < 0x80000000)
    (loaded : Image.load b.bytes capacity heapBytes = .ok m) :
    b.Reproduced m ∧ m.header = b.header := by
  have read := readBack small
  simp only [Image.load, show Header.parse b.bytes = .ok b.header from b.header.parse_append b.body,
    bind, Except.bind, read.statements, read.functions, read.globalDefs,
    read.fieldDefs, read.strings, read.globals, pure, Except.pure] at loaded
  split at loaded
  · cases loaded
  split at loaded
  · cases loaded
  split at loaded
  · cases loaded
  · cases loaded
    refine ⟨⟨?_, ?_, ?_, ?_, ?_, ?_, ?_⟩, ?_⟩ <;> simp only [Module.bind]
    all_goals rfl

end Builder

/-- Whether a place is that of one of a number of statements. -/
def lands (size : Nat) (place : Int) : Bool := 0 ≤ place && place < size

/-- Whether an opcode of the statement at an index of a body branches only to the body, and jumps to
no place that it finds in memory. -/
def Opcode.stays (size index : Nat) (st : Statement) : Opcode → Bool
  | branch _ => lands size (index + signedOperand st.b)
  | goto => lands size (index + signedOperand st.a)
  | jump | jumpTable => false
  | _ => true

/-- Whether no statement sends control out of a body. -/
def enclosed (body : List Statement) : Bool :=
  body.zipIdx.all fun (st, index) => (Opcode.ofCode? st.op).all (·.stays body.length index st)

/-- Statements with opcodes, none of which sends control elsewhere, and the last of which returns. -/
structure IsBody (statements : List Statement) : Prop where
  opcodes : ∀ st ∈ statements, ∃ op, Opcode.ofCode? st.op = some op
  returns : ∃ last, statements.getLast? = some last ∧
    (Opcode.ofCode? last.op = some .done ∨ Opcode.ofCode? last.op = some .ret)
  enclosed : enclosed statements

/-- Control from a statement of a body that comes after others stays in the body. -/
def Control.Stays (first size index : Nat) : Control → Prop
  | .next | .call .. => index + 1 < size
  | .jump target => first ≤ target ∧ target < first + size
  | .ret _ => True

namespace IsBody
variable {statements : List Statement}

theorem length_pos (h : IsBody statements) : 0 < statements.length := by
  obtain ⟨last, ends, -⟩ := h.returns
  exact List.length_pos_of_mem (List.mem_of_getLast? ends)

theorem keeps (h : IsBody statements) {index : Nat} {st : Statement}
    (at_index : statements[index]? = some st) (first : Nat) :
    ∃ op, Opcode.ofCode? st.op = some op ∧ ∀ control, op.Sends (first + index) st control →
      control.Stays first statements.length index := by
  obtain ⟨op, opcode⟩ := h.opcodes st (List.mem_of_getElem? at_index)
  refine ⟨op, opcode, ?_⟩
  intro control sends
  have stays := List.all_eq_true.mp h.enclosed (st, index)
    (List.mk_mem_zipIdx_iff_getElem?.mpr at_index)
  -- A statement that goes on to the next one is not the last of the body.
  have further (not_done : op ≠ .done) (not_ret : op ≠ .ret) : index + 1 < statements.length := by
    obtain ⟨last, ends, returns⟩ := h.returns
    have inside : index < statements.length := (List.getElem?_eq_some_iff.mp at_index).1
    refine Nat.lt_of_le_of_ne inside ?_
    intro final
    rw [List.getLast?_eq_getElem?, ← final, Nat.add_sub_cancel, at_index] at ends
    cases ends
    rw [opcode, Option.some_inj, Option.some_inj] at returns
    exact returns.elim not_done not_ret
  have landed {offset : Int} (h : lands statements.length (index + offset)) :
      (Control.jump ((first + index : Nat) + offset)).Stays first statements.length index := by
    simp only [lands, Bool.and_eq_true, decide_eq_true_eq] at h
    simp only [Control.Stays]
    omega
  simp only [opcode, Option.all_some] at stays
  cases op with
  | done =>
    rw [show control = _ from sends]
    trivial
  | ret =>
    rw [show control = _ from sends]
    trivial
  | jump => cases stays
  | jumpTable => cases stays
  | goto =>
    rw [show control = _ from sends]
    exact landed stays
  | branch condition =>
    rcases sends with rfl | rfl
    · exact further nofun nofun
    · exact landed stays
  | call argc =>
    obtain ⟨function, rfl⟩ := sends
    exact further nofun nofun
  | _ =>
    rw [show control = _ from sends]
    exact further nofun nofun

end IsBody

namespace Code
variable {code : Code} {number index : Nat} {statements : List Statement}

/-- The code with a body added behind the others, for a function. -/
def add (code : Code) (number : Nat) (statements : List Statement) : Code where
  statements := code.statements ++ statements.toArray
  functions := code.functions.modify number fun f =>
    { f with entry := Int32.ofNat code.statements.size }

theorem ofNat_pos {size : Nat} (nonempty : 0 < size) (small : size < 0x80000000) :
    0 < Int32.ofNat size := by
  rw [Int32.lt_iff_toInt_lt, Int32.toInt_ofNat_of_lt small]
  exact Int.natCast_pos.mpr nonempty

theorem firstStatement?_ofNat {f : FunctionRecord} {size : Nat} (entry : f.entry = Int32.ofNat size)
    (nonempty : 0 < size) (small : size < 0x80000000) : f.firstStatement? = some size := by
  rw [FunctionRecord.firstStatement?, entry, if_pos (ofNat_pos nonempty small),
    Int32.toInt_ofNat_of_lt small]
  rfl

theorem not_starts {start : Nat}
    (vacant : ∀ record, code.functions[number]? = some record → record.entry ≤ 0) :
    ¬ code.Starts number start := by
  intro starts
  obtain ⟨record, found, first⟩ := Option.bind_eq_some_iff.mp starts
  rw [FunctionRecord.firstStatement?, if_neg (Int32.not_lt.mpr (vacant record found))] at first
  cases first

/-- A function that has not got its body, in code with statements and with room for more. -/
structure Awaits (code : Code) (number : Nat) : Prop where
  vacant : ∃ record, code.functions[number]? = some record ∧ record.entry ≤ 0
  nonempty : 0 < code.statements.size
  small : code.statements.size < 0x80000000

section add
variable {other start : Nat} (hc : code.Sealed) (h : code.Awaits number)
include h

theorem Awaits.not_starts : ¬ code.Starts number start := by
  obtain ⟨record, found, vacant⟩ := h.vacant
  refine code.not_starts ?_
  intro record' found'
  cases found.symm.trans found'
  exact vacant

theorem starts_add : (code.add number statements).Starts other start ↔
    if other = number then start = code.statements.size else code.Starts other start := by
  simp only [Starts, add, Array.getElem?_modify]
  by_cases same : other = number
  · subst same
    obtain ⟨record, found, -⟩ := h.vacant
    rw [if_pos rfl, if_pos rfl, found, Option.map_some, Option.bind_some,
      firstStatement?_ofNat rfl h.nonempty h.small, Option.some_inj]
    exact eq_comm
  · rw [if_neg (Ne.symm same), if_neg same]

theorem starts_before (before : start < code.statements.size) :
    (code.add number statements).Starts other start ↔ code.Starts other start := by
  rw [starts_add h]
  split
  · rename_i same
    subst same
    exact iff_of_false (Nat.ne_of_lt before) h.not_starts
  · rfl

theorem owns_before (before : index < code.statements.size) :
    (code.add number statements).Owns other index ↔ code.Owns other index := by
  have starts {k start : Nat} (hs : start ≤ index) :
      (code.add number statements).Starts k start ↔ code.Starts k start :=
    starts_before h (Nat.lt_of_le_of_lt hs before)
  constructor
  · rintro ⟨entry, starts_entry, reached, nearest⟩
    exact ⟨entry, (starts reached).mp starts_entry, reached,
      fun k start ne hs le => nearest k start ne ((starts le).mpr hs) le⟩
  · rintro ⟨entry, starts_entry, reached, nearest⟩
    exact ⟨entry, (starts reached).mpr starts_entry, reached,
      fun k start ne hs le => nearest k start ne ((starts le).mp hs) le⟩

include hc

theorem owns_behind (behind : code.statements.size ≤ index) :
    (code.add number statements).Owns other index ↔ other = number := by
  have inside {k start : Nat} (hs : code.Starts k start) : start < code.statements.size :=
    (hc.entries hs).inside
  have starts_number : (code.add number statements).Starts number code.statements.size :=
    (starts_add h).mpr (by rw [if_pos rfl])
  constructor
  · rintro ⟨entry, starts_entry, -, nearest⟩
    refine Decidable.byContradiction fun ne => ?_
    rw [starts_add h, if_neg ne] at starts_entry
    have later := nearest number code.statements.size (Ne.symm ne) starts_number behind
    exact Nat.lt_asymm later (inside starts_entry)
  · rintro rfl
    refine ⟨code.statements.size, starts_number, behind, ?_⟩
    intro k start ne hs _
    rw [starts_add h, if_neg ne] at hs
    exact inside hs

omit hc in
theorem holds_before {place : Int} (holds : code.Holds other place) :
    (code.add number statements).Holds other place := by
  refine ⟨holds.nonnegative, ?_, (owns_before h holds.inside).mpr holds.owned⟩
  rw [add, Array.size_append]
  exact Nat.lt_add_right _ holds.inside

theorem holds_behind {place : Int} (behind : code.statements.size ≤ place)
    (inside : place < code.statements.size + statements.length) :
    (code.add number statements).Holds number place := by
  refine ⟨by omega, ?_, (owns_behind hc h (by omega)).mpr rfl⟩
  simp only [Code.add, Array.size_append, List.size_toArray]
  omega

theorem Sealed.add (hb : IsBody statements) : (code.add number statements).Sealed := by
  constructor
  · intro other entry starts
    rw [starts_add h] at starts
    split at starts
    · rename_i same
      have pos := hb.length_pos
      rw [same, starts]
      exact holds_behind hc h (Int.le_refl _) (by omega)
    · exact holds_before h (hc.entries starts)
  · intro other index st owned fetched
    by_cases before : index < code.statements.size
    · rw [Code.add, Array.getElem?_append_left before] at fetched
      obtain ⟨op, opcode, keeps⟩ := hc.keeps ((owns_before h before).mp owned) fetched
      refine ⟨op, opcode, ?_⟩
      intro control sends
      have kept := keeps control sends
      cases control with
      | next => exact holds_before h kept
      | call function argc => exact holds_before h kept
      | jump target => exact holds_before h kept
      | ret value => trivial
    · obtain ⟨offset, rfl⟩ := Nat.exists_eq_add_of_le (Nat.not_lt.mp before)
      rw [Code.add, Array.getElem?_append_right (Nat.le_add_right ..), Nat.add_sub_cancel_left,
        List.getElem?_toArray] at fetched
      rw [(owns_behind hc h (Nat.le_add_right ..)).mp owned]
      obtain ⟨op, opcode, keeps⟩ := hb.keeps fetched code.statements.size
      refine ⟨op, opcode, ?_⟩
      intro control sends
      have stays := keeps control sends
      cases control with
      | next => exact holds_behind hc h (by omega) (by simp only [Control.Stays] at stays; omega)
      | call function argc =>
        exact holds_behind hc h (by omega) (by simp only [Control.Stays] at stays; omega)
      | jump target => exact holds_behind hc h stays.1 stays.2
      | ret value => trivial

end add
end Code

namespace Assembly
variable {b b' : Builder} {f : FunctionSource} {d : Declared}

/-- A builder with all that a source declares, before bodies are added. -/
def declarations (s : Source) : Except Error (Builder × List Declared) := do
  let b ← s.globals.foldlM addGlobal (s.fields.foldl addField (start s.version))
  let (b, declared) ← declareFunctions b s.functions
  return ((b.reserveWords (Address.argumentWords - 1)).2, declared)

theorem assemble_eq (s : Source) : assemble s = declarations s >>= fun (b, declared) =>
    (s.functions.zip declared).foldlM (fun b (f, d) => addBody b f d) b := by
  simp only [assemble, declarations, bind_assoc, pure_bind]

/-- The bodies of the functions of a source, as they are assembled. -/
def Source.bodies (s : Source) : List (List Statement) :=
  match declarations s with
  | .error _ => []
  | .ok (b, declared) => (s.functions.zip declared).filterMap fun (f, d) =>
    if f.builtin.isSome then none else (body b d.scope f).toOption

/-- Every relative branch of a source lands in the body of the function that it is written in, no
statement jumps to a place found in memory, and builtins have numbers that a function can hold. -/
structure Source.Enclosed (s : Source) : Prop where
  bodies : ∀ body ∈ s.bodies, enclosed body
  builtins : ∀ f ∈ s.functions, ∀ n, f.builtin = some n → 1 ≤ n ∧ n ≤ 0x80000000

theorem start_code (version : Option UInt32) : (start version).code = Builder.empty.code := by
  simp only [start]
  refine List.foldlRecOn (motive := fun b : Builder => b.code = Builder.empty.code) reservedNames _
    ?_ ?_
  · cases version <;> rfl
  · intro b same name _
    exact (b.addDef_code ..).trans same

theorem addField_code (b : Builder) (s : Symbol) : (addField b s).code = b.code := by
  simp only [addField, Builder.addGlobal_code, Builder.addField_code]

theorem addGlobal_code {g : GlobalSource} (h : addGlobal b g = .ok b') : b'.code = b.code := by
  simp only [addGlobal] at h
  split at h
  · cases h
    rw [Builder.addGlobal_code, Builder.addString_code]
  · cases h
    rw [Builder.addGlobal_code]
  · cases h

theorem addFields_code (b : Builder) (fields : List Symbol) :
    (fields.foldl addField b).code = b.code :=
  List.foldlRecOn (motive := fun b' => b'.code = b.code) fields _ rfl fun b' same field _ =>
    (addField_code b' field).trans same

theorem addGlobals_code {globals : List GlobalSource} (h : globals.foldlM addGlobal b = .ok b') :
    b'.code = b.code :=
  foldlM_invariant (P := fun b' => b'.code = b.code) h rfl fun _ _ _ _ same added =>
    (addGlobal_code added).trans same

theorem declareAll_code (b : Builder) (scope : Scope) (symbols : List Symbol) :
    (declareAll b scope symbols).1.code = b.code := by
  rw [declareAll]
  refine List.foldlRecOn (motive := fun p : Builder × Scope => p.1.code = b.code) symbols _ rfl ?_
  intro p same s _
  simp only [declare, Builder.addDef_code, Builder.reserveWords_code, same]

def vacantEntry (f : FunctionSource) : Int32 :=
  match f.builtin with
  | some n => -n.toInt32
  | none => 0

def declareNames (b : Builder) (f : FunctionSource) : Builder × Scope :=
  let (b, scope) := declareAll b [] f.params
  let (b, scope) :=
    if f.variadic then
      let (b, scope) := declareAll b scope variadicSymbols
      ((b.reserveWords ((maxParameters - f.params.length) * Address.argumentWords)).2, scope)
    else (b, scope)
  declareAll b scope f.locals

/-- The record of a function whose names are declared, behind the words before them. -/
def declareRecord (b : Builder) (f : FunctionSource) (start : Nat) : Nat × Builder :=
  let locals := UInt32.ofNat b.globals.size - UInt32.ofNat start
  let sizes := f.params.map fun s => UInt8.ofNat s.type.width
  if f.variadic then b.addVariadic f.name f.file 0 (UInt32.ofNat start) sizes locals
  else b.addFunction f.name f.file 0 (UInt32.ofNat start) sizes locals

theorem declareFunction_bytecode (bytecode : f.builtin = none)
    (h : declareFunction b f = .ok (b', d)) :
    let (named, scope) := declareNames b f
    let (number, added) := declareRecord named f b.globals.size
    b' = (added.addGlobal f.name (.function (UInt32.ofNat number))).2 ∧ d = ⟨number, scope⟩ := by
  unfold declareFunction at h
  rw [bytecode] at h
  by_cases surplus : (if f.variadic then maxParameters - 1 else maxParameters) < f.params.length
  · cases h.symm.trans (if_pos surplus)
  · have declared := Except.ok.inj (h.symm.trans (if_neg surplus))
    exact ⟨congrArg Prod.fst declared, congrArg Prod.snd declared⟩

theorem declareNames_code (b : Builder) (f : FunctionSource) : (declareNames b f).1.code = b.code := by
  simp only [declareNames]
  cases f.variadic <;> simp only [declareAll_code, Builder.reserveWords_code, Bool.false_eq_true,
    if_false, if_true]

theorem declareRecord_code (b : Builder) (f : FunctionSource) (start : Nat) :
    (declareRecord b f start).1 = b.functions.size ∧ ∃ record, record.entry = 0 ∧
      (declareRecord b f start).2.code = ⟨b.statements, b.functions.push record⟩ := by
  simp only [declareRecord]
  cases f.variadic with
  | true =>
    obtain ⟨number, name, file, code⟩ := b.pushFunction_code f.name f.file _
    exact ⟨number, _, rfl, code⟩
  | false =>
    obtain ⟨number, name, file, code⟩ := b.pushFunction_code f.name f.file _
    exact ⟨number, _, rfl, code⟩

theorem declareFunction_ok (h : declareFunction b f = .ok (b', d)) :
    d.number = b.functions.size ∧ ∃ record, record.entry = vacantEntry f ∧
      b'.code = ⟨b.statements, b.functions.push record⟩ := by
  cases builtin : f.builtin with
  | some n =>
    obtain ⟨number, name, file, code⟩ := b.pushFunction_code f.name ""
      { FunctionRecord.null with entry := -n.toInt32 }
    simp only [declareFunction, builtin] at h
    cases h
    refine ⟨number, _, ?_, (Builder.addGlobal_code ..).trans code⟩
    simp only [vacantEntry, builtin]
  | none =>
    have named := declareNames_code b f
    obtain ⟨number, record, entry, code⟩ :=
      declareRecord_code (declareNames b f).1 f b.globals.size
    obtain ⟨rfl, rfl⟩ := declareFunction_bytecode builtin h
    simp only [Builder.code, Code.mk.injEq] at named
    rw [named.1, named.2] at code
    rw [named.2] at number
    refine ⟨number, record, ?_, (Builder.addGlobal_code ..).trans code⟩
    simp only [entry, vacantEntry, builtin]

/-- Functions that are declared one after another from a number on, and have no bodies. -/
def Vacant (functions : Array FunctionRecord) : Nat → List (FunctionSource × Declared) → Prop
  | number, [] => functions.size = number
  | number, (f, d) :: rest =>
    d.number = number ∧
      (∃ record, functions[number]? = some record ∧ record.entry = vacantEntry f) ∧
      Vacant functions (number + 1) rest

theorem declareFunctions_ok {fs : List FunctionSource} {declared : List Declared}
    (h : declareFunctions b fs = .ok (b', declared)) :
    b'.statements = b.statements ∧
      (∀ k < b.functions.size, b'.functions[k]? = b.functions[k]?) ∧
      Vacant b'.functions b.functions.size (fs.zip declared) := by
  induction fs generalizing b declared with
  | nil =>
    cases h
    exact ⟨rfl, fun _ _ => rfl, rfl⟩
  | cons f fs ih =>
    rw [declareFunctions] at h
    obtain ⟨⟨b₁, d⟩, hd, h⟩ := ok_of_bind h
    obtain ⟨⟨b₂, ds⟩, hds, h⟩ := ok_of_bind h
    cases h
    obtain ⟨number, record, entry, code⟩ := declareFunction_ok hd
    obtain ⟨statements, kept, vacant⟩ := ih hds
    simp only [Builder.code, Code.mk.injEq] at code
    rw [code.2] at kept vacant
    rw [Array.size_push] at kept vacant
    refine ⟨statements.trans code.1, ?_, number, ⟨record, ?_, entry⟩, vacant⟩
    · intro k hk
      rw [kept k (by omega), Array.getElem?_push_lt hk, Array.getElem?_eq_getElem hk]
    · rw [kept _ (Nat.lt_succ_self _), Array.getElem?_push_size]

/-- The opcode of a mnemonic is the first that has it. Looked up like this, it is found without the
table of mnemonics, and samples are assembled faster. -/
theorem ofMnemonic?_eq_find? (name : String) :
    Opcode.ofMnemonic? name = Opcode.table.toList.find? (·.mnemonic == name) := by
  unfold Opcode.ofMnemonic? Opcode.mnemonics
  rw [Array.findIdx?_map, ← Array.find?_eq_bind_findIdx?_getElem?, Array.find?_toList]
  rfl

theorem ofCode?_of_mnemonic {mnemonic : String} {op : Opcode}
    (h : Opcode.ofMnemonic? mnemonic = some op) : Opcode.ofCode? op.code = some op := by
  obtain ⟨index, -, at_index⟩ := Option.bind_eq_some_iff.mp h
  have mem : op ∈ Opcode.table.toList := by
    rw [Array.mem_toList_iff]
    exact Array.mem_of_getElem? at_index
  have inside := List.idxOf_lt_length_iff.mpr mem
  have few : Opcode.table.toList.length < 65536 := by decide +kernel
  rw [Opcode.ofCode?, Opcode.code, UInt16.toNat_ofNat', Nat.mod_eq_of_lt (Nat.lt_trans inside few),
    ← Array.getElem?_toList, List.getElem?_eq_getElem inside, List.getElem_idxOf]

theorem ofCode?_done : Opcode.ofCode? Opcode.done.code = some .done := by decide +kernel

theorem ofCode?_ret : Opcode.ofCode? Opcode.ret.code = some .ret := by decide +kernel

theorem statement_ok {scope : Scope} {function : String} {index : Nat} {parts : List Operand}
    {st : Statement} (h : statement b scope function index parts = .ok st) :
    ∃ mnemonic rest op slots, parts = .name mnemonic :: rest ∧
      Opcode.ofMnemonic? mnemonic = some op ∧ rest.mapM (operand b scope function) = .ok slots ∧
      st = ⟨op.code, slots.getD 0 0, slots.getD 1 0, slots.getD 2 0⟩ := by
  simp only [statement] at h
  split at h
  · cases h
  · cases h
  · rename_i mnemonic rest
    split at h
    · cases h
    cases known : Opcode.ofMnemonic? mnemonic with
    | none =>
      rw [known] at h
      cases h
    | some op =>
      rw [known] at h
      obtain ⟨slots, assembled, h⟩ := ok_of_bind h
      cases h
      exact ⟨mnemonic, rest, op, slots, rfl, known, assembled, rfl⟩

theorem statement_opcode {scope : Scope} {function : String} {index : Nat} {parts : List Operand}
    {st : Statement} (h : statement b scope function index parts = .ok st) :
    ∃ op, Opcode.ofCode? st.op = some op := by
  obtain ⟨mnemonic, rest, op, slots, -, known, -, rfl⟩ := statement_ok h
  exact ⟨op, ofCode?_of_mnemonic known⟩

/-- An assembled body is one as far as its branches stay in it. -/
theorem body_isBody {scope : Scope} {statements : List Statement}
    (h : body b scope f = .ok statements) (stays : enclosed statements) : IsBody statements := by
  obtain ⟨written, hw, h⟩ := ok_of_bind h
  have opcodes : ∀ st ∈ written, ∃ op, Opcode.ofCode? st.op = some op := by
    intro st hst
    obtain ⟨⟨parts, index⟩, -, assembled⟩ := mem_of_mapM_ok hw hst
    exact statement_opcode assembled
  dsimp only at h
  split at h
  · rename_i ended
    cases h
    refine ⟨opcodes, ?_, stays⟩
    cases last : statements.getLast? with
    | none =>
      rw [last] at ended
      cases ended
    | some st =>
      rw [last, Option.any_some, Bool.or_eq_true, decide_eq_true_eq, decide_eq_true_eq] at ended
      refine ⟨st, rfl, ?_⟩
      exact ended.imp (fun done => by rw [done, ofCode?_done]) fun ret => by rw [ret, ofCode?_ret]
  · cases h
    refine ⟨?_, ⟨_, List.getLast?_concat, .inl ofCode?_done⟩, stays⟩
    intro st hst
    rcases List.mem_append.mp hst with hst | hst
    · exact opcodes st hst
    · rw [List.mem_singleton.mp hst]
      exact ⟨.done, ofCode?_done⟩

theorem body_congr (names : b'.names = b.names) : body b' = body b := by
  have operands : operand b' = operand b := by
    funext scope function o
    cases o <;> simp only [operand, resolve?, Builder.globalOffset?, names]
  funext scope f
  simp only [body, statement, operands]

theorem addBody_ok (h : addBody b f d = .ok b') :
    (∃ n, f.builtin = some n ∧ b' = b) ∨
    f.builtin = none ∧ ∃ statements, body b d.scope f = .ok statements ∧ b'.names = b.names ∧
      b'.code = b.code.add d.number statements := by
  simp only [addBody] at h
  cases builtin : f.builtin with
  | some n =>
    rw [builtin] at h
    cases h
    exact .inl ⟨n, rfl, rfl⟩
  | none =>
    rw [builtin] at h
    obtain ⟨statements, hs, h⟩ := ok_of_bind h
    cases h
    exact .inr ⟨rfl, statements, hs, rfl, rfl⟩

theorem addBodies_grow {pairs : List (FunctionSource × Declared)}
    (h : pairs.foldlM (fun b (f, d) => addBody b f d) b = .ok b') :
    b.statements.size ≤ b'.statements.size := by
  refine foldlM_invariant (P := fun b' => b.statements.size ≤ b'.statements.size) h
    (Nat.le_refl _) ?_
  rintro b₁ ⟨f, d⟩ b₂ - grown added
  refine Nat.le_trans grown ?_
  rcases addBody_ok added with ⟨n, -, rfl⟩ | ⟨-, statements, -, -, code⟩
  · exact Nat.le_refl _
  · rw [show b₂.statements = _ from congrArg Code.statements code, Code.add, Array.size_append]
    exact Nat.le_add_right _ _

namespace Vacant
variable {functions : Array FunctionRecord} {number : Nat}
  {pairs : List (FunctionSource × Declared)}

theorem modify (h : Vacant functions number pairs) {earlier : Nat} (lt : earlier < number)
    (g : FunctionRecord → FunctionRecord) : Vacant (functions.modify earlier g) number pairs := by
  induction pairs generalizing number with
  | nil => exact (Array.size_modify ..).trans h
  | cons pair pairs ih =>
    obtain ⟨number_eq, ⟨record, found, entry⟩, rest⟩ := h
    refine ⟨number_eq, ⟨record, ?_, entry⟩, ih rest (Nat.lt_succ_of_lt lt)⟩
    rw [Array.getElem?_modify, if_neg (Nat.ne_of_lt lt)]
    exact found

theorem entry (h : Vacant functions number pairs) {k : Nat} {record : FunctionRecord}
    (le : number ≤ k) (found : functions[k]? = some record) :
    ∃ p ∈ pairs, record.entry = vacantEntry p.1 := by
  induction pairs generalizing number with
  | nil =>
    have inside := (Array.getElem?_eq_some_iff.mp found).1
    rw [show functions.size = number from h] at inside
    exact absurd inside (Nat.not_lt.mpr le)
  | cons pair pairs ih =>
    obtain ⟨-, ⟨first, at_number, entry⟩, rest⟩ := h
    by_cases here : number = k
    · subst here
      cases at_number.symm.trans found
      exact ⟨pair, List.mem_cons_self, entry⟩
    · obtain ⟨p, mem, entry⟩ := ih rest (by omega)
      exact ⟨p, List.mem_cons_of_mem _ mem, entry⟩

end Vacant

theorem builtin_entry {n : UInt32} (positive : 1 ≤ n) (bound : n ≤ 0x80000000) : -n.toInt32 < 0 := by
  have low : 1 ≤ n.toNat := UInt32.le_iff_toNat_le.mp positive
  have high : n.toNat ≤ 0x80000000 := UInt32.le_iff_toNat_le.mp bound
  have signed : n.toInt32.toInt = (n.toNat : Int).bmod (2 ^ 32) := BitVec.toInt_eq_toNat_bmod _
  rw [Int32.lt_iff_toInt_lt, Int32.toInt_neg, signed, Int32.toInt_zero]
  simp only [Int.bmod]
  omega

theorem vacantEntry_le {f : FunctionSource} (builtin_neg : ∀ n, f.builtin = some n → -n.toInt32 < 0) :
    vacantEntry f ≤ 0 := by
  cases builtin : f.builtin with
  | none => simp only [vacantEntry, builtin, Int32.le_refl]
  | some n =>
    simp only [vacantEntry, builtin]
    exact Int32.le_of_lt (builtin_neg n builtin)

/-- A builder in which the functions before a number have their bodies, and the others are vacant. -/
structure Placing (names : List (String × UInt16)) (number : Nat)
    (rest : List (FunctionSource × Declared)) (b : Builder) : Prop where
  names : b.names = names
  code : b.code.Sealed
  nonempty : 0 < b.statements.size
  vacant : Vacant b.functions number rest
  entered : ∀ {k record}, k ≠ 0 → k < number → b.functions[k]? = some record → record.entry ≠ 0

section placing
variable {b₀ b₁ : Builder} {number : Nat} {rest : List (FunctionSource × Declared)}

/-- When nothing has been entered yet, there are no statements to keep in bodies. -/
theorem Placing.begin (statements : b.statements = #[.null])
    (null : b.functions[0]? = some .null) (vacant : Vacant b.functions 1 rest)
    (builtins_neg : ∀ p ∈ rest, ∀ n, p.1.builtin = some n → -n.toInt32 < 0) :
    Placing b.names 1 rest b := by
  have no_start (number entry : Nat) : ¬ b.code.Starts number entry := by
    refine Code.not_starts ?_
    intro record found
    cases number with
    | zero =>
      cases null.symm.trans found
      decide
    | succ number =>
      obtain ⟨p, hp, entry⟩ := vacant.entry (Nat.le_add_left 1 number) found
      rw [entry]
      exact vacantEntry_le (builtins_neg p hp)
  refine ⟨rfl, ⟨fun starts => (no_start _ _ starts).elim, ?_⟩, ?_, vacant, ?_⟩
  · rintro number index st ⟨entry, starts, -⟩
    exact (no_start _ _ starts).elim
  · rw [statements]
    decide
  · intro k record h0 lt
    omega

/-- One more function gets its body, or has a builtin in place of one. -/
theorem Placing.next (h : Placing b₀.names number ((f, d) :: rest) b)
    (stays : f.builtin = none → ∀ statements,
      body b₀ d.scope f = .ok statements → enclosed statements)
    (builtin_neg : ∀ n, f.builtin = some n → -n.toInt32 < 0) (added : addBody b f d = .ok b₁)
    (small : b₁.statements.size < 0x80000000) : Placing b₀.names (number + 1) rest b₁ := by
  obtain ⟨names, sealed_code, nonempty, ⟨rfl, ⟨record, found, entry⟩, vacant⟩, entered⟩ := h
  rcases addBody_ok added with ⟨n, builtin, rfl⟩ | ⟨builtin, statements, assembled, same, code⟩ <;>
    simp only [vacantEntry, builtin] at entry
  · refine ⟨names, sealed_code, nonempty, vacant, ?_⟩
    intro k record' h0 lt found'
    rcases Nat.lt_succ_iff_lt_or_eq.mp lt with lt | rfl
    · exact entered h0 lt found'
    · cases found.symm.trans found'
      rw [entry]
      exact Int32.ne_of_lt (builtin_neg n builtin)
  · have isBody : IsBody statements := by
      rw [body_congr names] at assembled
      exact body_isBody assembled (stays builtin statements assembled)
    have grown : b₁.statements.size = b.statements.size + statements.length := by
      rw [show b₁.statements = _ from congrArg Code.statements code, Code.add, Array.size_append]
      rfl
    have fits : b.statements.size < 0x80000000 := by omega
    have awaits : b.code.Awaits d.number := ⟨⟨record, found, Int32.le_of_eq entry⟩, nonempty, fits⟩
    have sealed_code' := Code.Sealed.add sealed_code awaits isBody
    rw [← code] at sealed_code'
    simp only [Builder.code, Code.add, Code.mk.injEq] at code
    refine ⟨same.trans names, sealed_code', by omega, ?_, ?_⟩
    · rw [code.2]
      exact vacant.modify (Nat.lt_succ_self _) _
    · intro k record' h0 lt found'
      rw [code.2, Array.getElem?_modify] at found'
      split at found'
      · rename_i here
        subst here
        rw [found] at found'
        cases found'
        exact (Int32.ne_of_lt (Code.ofNat_pos nonempty fits)).symm
      · exact entered h0 (by omega) found'

theorem Placing.run (h : Placing b₀.names number rest b)
    (stays : ∀ p ∈ rest, p.1.builtin = none → ∀ statements,
      body b₀ p.2.scope p.1 = .ok statements → enclosed statements)
    (builtins_neg : ∀ p ∈ rest, ∀ n, p.1.builtin = some n → -n.toInt32 < 0)
    (added : rest.foldlM (fun b (f, d) => addBody b f d) b = .ok b')
    (small : b'.statements.size < 0x80000000) : Placing b₀.names (number + rest.length) [] b' := by
  induction rest generalizing b number with
  | nil =>
    cases added
    exact h
  | cons pair rest ih =>
    obtain ⟨f, d⟩ := pair
    rw [List.foldlM_cons] at added
    obtain ⟨b₁, first, later⟩ := ok_of_bind added
    obtain ⟨stays_f, stays⟩ := List.forall_mem_cons.mp stays
    obtain ⟨builtin_neg, builtins_neg⟩ := List.forall_mem_cons.mp builtins_neg
    have small' := Nat.lt_of_le_of_lt (addBodies_grow later) small
    have placed := ih (h.next stays_f builtin_neg first small') stays builtins_neg later
    rw [List.length_cons, Nat.add_comm rest.length, ← Nat.add_assoc]
    exact placed

end placing

/-- Before the bodies there is only the null statement, and every function but function 0 is vacant. -/
theorem declarations_ok {s : Source} {declared : List Declared}
    (h : declarations s = .ok (b, declared)) :
    b.statements = #[.null] ∧ b.functions[0]? = some .null ∧
      Vacant b.functions 1 (s.functions.zip declared) := by
  obtain ⟨b₁, globals, h⟩ := ok_of_bind h
  obtain ⟨⟨b₂, ds⟩, functions, h⟩ := ok_of_bind h
  cases h
  have code := addGlobals_code globals
  rw [addFields_code, start_code] at code
  simp only [Builder.code, Code.mk.injEq] at code
  obtain ⟨statements, kept, vacant⟩ := declareFunctions_ok functions
  rw [code.2] at kept vacant
  rw [code.1] at statements
  exact ⟨statements, kept 0 (by decide), vacant⟩

/-- The code of an assembled module is sealed, and every function but function 0 is entered in it. -/
theorem assemble_sealed {s : Source} (hs : s.Enclosed) (h : assemble s = .ok b)
    (small : b.statements.size < 0x80000000) :
    b.code.Sealed ∧
      ∀ {k record}, k ≠ 0 → b.functions[k]? = some record → record.entry ≠ 0 := by
  rw [assemble_eq] at h
  obtain ⟨⟨b₀, declared⟩, declarations, added⟩ := ok_of_bind h
  obtain ⟨statements, null, vacant⟩ := declarations_ok declarations
  have builtins_neg : ∀ p ∈ s.functions.zip declared, ∀ n, p.1.builtin = some n →
      -n.toInt32 < 0 := by
    intro p hp n builtin
    obtain ⟨positive, bound⟩ := hs.builtins p.1 (List.of_mem_zip hp).1 n builtin
    exact builtin_entry positive bound
  have placing : Placing b₀.names 1 (s.functions.zip declared) b₀ :=
    .begin statements null vacant builtins_neg
  have stays : ∀ p ∈ s.functions.zip declared, p.1.builtin = none → ∀ statements,
      body b₀ p.2.scope p.1 = .ok statements → enclosed statements := by
    intro p hp bytecode statements assembled
    apply hs.bodies
    simp only [Source.bodies, declarations]
    refine List.mem_filterMap.mpr ⟨p, hp, ?_⟩
    rw [bytecode, assembled]
    rfl
  have placed := placing.run stays builtins_neg added small
  refine ⟨placed.code, fun h0 found => placed.entered h0 ?_ found⟩
  exact Nat.lt_of_lt_of_eq (Array.getElem?_eq_some_iff.mp found).1 placed.vacant

/-- A module loaded from the image of an assembled source is sealed. -/
theorem loaded_sealed {s : Source} (hs : s.Enclosed) (assembled : assemble s = .ok b)
    (small : b.bytes.length < 0x80000000) {capacity heapBytes : Nat} {m : Module}
    (loaded : Image.load b.bytes capacity heapBytes = .ok m) : m.Sealed := by
  have length := b.length_bytes
  simp only [Statement.size] at length
  obtain ⟨sealed_code, entered⟩ := assemble_sealed hs assembled (by omega)
  obtain ⟨same, -⟩ := Builder.load_reproduces small loaded
  have code : m.code = b.code := by rw [Module.code, same.statements, same.functions, Builder.code]
  refine ⟨by rw [code]; exact sealed_code, ?_⟩
  intro number f found h0
  rw [Module.function?, same.functions] at found
  exact entered h0 found

open GameBytecode.Configuration

/-- Control keeps to the functions of an assembled module. Whatever numbers memory holds, and however
builtins execute functions again, a statement that is executed is one of the current function, and what
is not a statement with an opcode is reported only by a builtin. -/
theorem control_flow_integrity {source : Source} (enclosed : source.Enclosed)
    (assembled : assemble source = .ok b) (small : b.bytes.length < 0x80000000)
    {capacity heapBytes : Nat} {s : Session}
    (loaded : Image.load b.bytes capacity heapBytes = .ok s.machine.program) (idle : s.Idle)
    {number n : Nat} {c : Configuration} (hc : after n (Configuration.start number s) = some c) :
    (∀ u, c.Executing u → u.program.functionAt? u.control.statement = some u.control.function) ∧
      ∀ kind : Fault, kind.Astray → c.task.fault? = some kind →
        ∃ k < n, ∃ d, after k (Configuration.start number s) = some d ∧ d.task = .perform (.fail kind) :=
  sealed_control_flow (loaded_sealed enclosed assembled small loaded) idle hc

/-- A source whose first function calls a builtin and branches to the statement added to it, and whose
second function returns. -/
def branching : Source where
  version := none
  fields := []
  globals := [⟨"one", some (.float Single.one), none⟩]
  functions := [
    ⟨"main", "", none, [], [], false, [[.name "call0", .name "again"],
      [.name "if", .name "one", .number 2], [.name "call0", .name "again"]]⟩,
    ⟨"inner", "", none, [], [], false, [[.name "return"]]⟩,
    ⟨"again", "", some 1, [], [], false, []⟩]

theorem branching_assembles : (assemble branching).toOption.isSome := by
  simp only [assemble, addBody, body, statement, ofMnemonic?_eq_find?]
  decide +kernel

def branchingBuilder : Builder := (assemble branching).toOption.get branching_assembles

theorem branching_loads : (Machine.load branchingBuilder.bytes 0 0 {}).toOption.isSome := by
  simp only [branchingBuilder, assemble, addBody, body, statement, ofMnemonic?_eq_find?]
  decide +kernel

def branchingMachine : Machine :=
  (Machine.load branchingBuilder.bytes 0 0 {}).toOption.get branching_loads

def reentering : Session := ⟨branchingMachine, [⟨1, "again", .execute 2 fun _ => .done⟩]⟩

theorem reentering_facts : branchingBuilder.bytes.length < 0x80000000 ∧
    (∀ body ∈ branching.bodies, enclosed body) ∧
      (after 4 (Configuration.start 1 reentering)).any runsStatement := by
  simp only [reentering, branchingMachine, branchingBuilder, Source.bodies, assemble, addBody, body,
    statement, ofMnemonic?_eq_find?]
  decide +kernel

theorem branching_enclosed : branching.Enclosed := by
  refine ⟨reentering_facts.2.1, ?_⟩
  intro f hf n hn
  simp only [branching, List.mem_cons, List.not_mem_nil, or_false] at hf
  rcases hf with rfl | rfl | rfl
  · cases hn
  · cases hn
  · cases hn
    decide

theorem branchingMachine_load :
    Machine.load branchingBuilder.bytes 0 0 {} = .ok branchingMachine :=
  Session.eq_ok_get branching_loads

theorem reentering_loaded :
    Image.load branchingBuilder.bytes 0 0 = .ok reentering.machine.program := by
  have loaded := (Machine.load_ok branchingMachine_load).1.1
  rw [reentering]
  exact loaded

theorem reentering_idle : reentering.Idle := by
  refine Session.idle_of_load branchingMachine_load ?_
  intro b hb
  rw [List.mem_singleton.mp hb]
  exact fun _ => trivial

/-- While the builtin runs the second function, the statement executed is one of that. -/
theorem reentering_integrity :
    branching.Enclosed ∧ assemble branching = .ok branchingBuilder ∧
      branchingBuilder.bytes.length < 0x80000000 ∧
      Image.load branchingBuilder.bytes 0 0 = .ok reentering.machine.program ∧ reentering.Idle ∧
      ∃ c, after 4 (Configuration.start 1 reentering) = some c ∧ runsStatement c ∧
        ∀ u, c.Executing u →
          u.program.functionAt? u.control.statement = some u.control.function := by
  have assembled : assemble branching = .ok branchingBuilder := Session.eq_ok_get branching_assembles
  obtain ⟨small, -, runs⟩ := reentering_facts
  refine ⟨branching_enclosed, assembled, small, reentering_loaded, reentering_idle, ?_⟩
  obtain ⟨c, hc, runs⟩ := (Option.any_eq_true _ _).mp runs
  exact ⟨c, hc, runs, (control_flow_integrity branching_enclosed assembled small
    reentering_loaded reentering_idle hc).1⟩

end Assembly
end GameBytecode
