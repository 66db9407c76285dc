import GameBytecode.Proofs.DeclaredNames
import GameBytecode.Proofs.EnterLeave
import GameBytecode.Proofs.RegionIsolation

/-!
The words of an assembled function. The assembler reserves them while it declares names, and the record
that it writes then says where they are and what comes to them; the two agree, so that the locals have
room for whatever is passed.
-/
namespace GameBytecode

namespace Assembly

/-- Words of parameters or locals. -/
def widths (symbols : List Symbol) : List Nat := symbols.map (·.type.width)

namespace FunctionSource

/-- Words between the parameters and the locals: of a variadic function, the number and the address of
its further arguments, and their slots. -/
def between (f : FunctionSource) : Nat :=
  if f.variadic then 2 + (maxParameters - f.params.length) * Address.argumentWords else 0

def words (f : FunctionSource) : Nat := (widths f.params).sum + f.between + (widths f.locals).sum

end FunctionSource

theorem wordCount_reservations (symbols : List Symbol) (i : Nat) :
    wordCount (symbols.map (·.reservation i)) = (widths symbols).sum := by
  rw [wordCount, List.map_map]
  rfl

theorem FunctionSource.wordCount_own {f : FunctionSource} (bytecode : f.builtin = none) (i : Nat) :
    wordCount (f.own i) = f.words := by
  have further : wordCount (f.further i) = f.between := by
    unfold FunctionSource.further between
    cases f.variadic with
    | false => rfl
    | true =>
      simp only [if_true, wordCount, List.map_cons, List.map_nil, List.sum_cons, List.sum_nil]
      omega
  simp only [own, bytecode, Option.isSome_none, Bool.false_eq_true, if_false, wordCount_append,
    wordCount_reservations, further, words]

/-- Where the words of a function are: behind all that the source declares before it. -/
def Source.startOf (s : Source) (i : Nat) : Nat :=
  Address.reserved + wordCount { s with functions := s.functions.take i }.reservations

theorem functionReservations_cons (n : Nat) (f : FunctionSource) (fs : List FunctionSource) :
    functionReservations n (f :: fs) = f.reservations n ++ functionReservations (n + 1) fs := by
  rw [functionReservations, List.zipIdx_cons, List.flatMap_cons]
  rfl

/-- Among the names of functions those of each one are together, behind the words of the functions
before it. -/
theorem ownedBy_functions {n i : Nat} {fs : List FunctionSource} {f : FunctionSource}
    (hf : fs[i]? = some f) (address : Nat) :
    ownedBy (n + i) (placeAll address (functionReservations n fs)) =
      placeAll (address + wordCount (functionReservations n (fs.take i))) (f.own (n + i)) := by
  induction fs generalizing n i address with
  | nil => cases hf
  | cons g fs ih =>
    rw [functionReservations_cons, placeAll_append, ownedBy_append]
    cases i with
    | zero =>
      cases hf
      rw [Nat.add_zero, f.ownedBy_reservations, ownedBy_functions_below (Nat.lt_succ_self n),
        List.append_nil]
      rfl
    | succ i =>
      rw [g.ownedBy_reservations_ne (by omega), List.nil_append, List.take_succ_cons,
        functionReservations_cons, wordCount_append, ← Nat.add_assoc, ← Nat.add_assoc,
        Nat.add_right_comm n]
      exact ih hf _

/-- The names that a function owns are those of its parameters and locals, one behind another from its
first word on. -/
theorem Source.ownedBy_placements {s : Source} {i : Nat} {f : FunctionSource}
    (hf : s.functions[i]? = some f) :
    ownedBy i s.placements = placeAll (s.startOf i) (f.own i) := by
  have other : ∀ r ∈ s.fields.map (fun field => Reservation.ofModule field.name 1) ++
      s.globals.map (fun g => .ofModule g.name g.words), r.owner ≠ some i := by
    intro r hr
    rcases List.mem_append.mp hr with hr | hr
    · obtain ⟨field, -, rfl⟩ := List.mem_map.mp hr
      exact (Option.some_ne_none i).symm
    · obtain ⟨g, -, rfl⟩ := List.mem_map.mp hr
      exact (Option.some_ne_none i).symm
  have own := ownedBy_functions (n := 0) hf
  rw [Nat.zero_add] at own
  rw [placements, reservations, placeAll_append, ownedBy_append, ownedBy_nil other, List.nil_append, own,
    Nat.add_assoc, ← wordCount_append]
  rfl

end Assembly

open Assembly

/-- A record says where the words of a function start and how many they are, and how its arguments
come. -/
structure FunctionRecord.Describes (record : FunctionRecord) (f : FunctionSource) (start : Nat) :
    Prop where
  start : record.start = UInt32.ofNat start
  locals : record.locals = UInt32.ofNat f.words
  isVariadic : record.isVariadic = f.variadic
  fixedSizes : record.fixedSizes = widths f.params

theorem Int32.toInt_neg_ofNat {n : Nat} (h : n < 0x80000000) : (-Int32.ofNat n).toInt = -(n : Int) := by
  rw [Int32.toInt_neg, Int32.toInt_ofNat_of_lt h]
  exact Int.bmod_eq_of_le (by omega) (by omega)

namespace Builder

theorem take_parameterSizes {sizes : List UInt8} (few : sizes.length ≤ maxParameters) :
    (parameterSizes sizes).toList.take sizes.length = sizes := by
  have length : (parameterSizes sizes).toList.length = maxParameters := Vector.length_toList
  refine List.ext_getElem ?_ fun i hi hi' => ?_
  · rw [List.length_take, length]
    exact Nat.min_eq_left few
  · simp only [parameterSizes, List.getElem_take, Vector.getElem_toList, Vector.getElem_ofFn]
    rw [List.getD_eq_getElem?_getD, List.getElem?_eq_getElem hi']
    rfl

end Builder

namespace Assembly
variable {b b' : Builder} {f : FunctionSource} {d : Declared}

/-- The most parameters that a function can have: a variadic one needs a slot for further arguments. -/
def FunctionSource.maxParams (f : FunctionSource) : Nat :=
  if f.variadic then maxParameters - 1 else maxParameters

def FunctionSource.sizes (f : FunctionSource) : List UInt8 :=
  f.params.map fun s => UInt8.ofNat s.type.width

theorem FunctionSource.sizes_toNat (f : FunctionSource) :
    f.sizes.map (·.toNat) = widths f.params := by
  simp only [sizes, widths, List.map_map]
  refine List.map_congr_left fun s _ => ?_
  change (UInt8.ofNat s.type.width).toNat = s.type.width
  cases s.type <;> rfl

/-- The number of parameters as a record has it: below zero if further arguments may follow. -/
def FunctionSource.arity (f : FunctionSource) : Int :=
  if f.variadic then -(f.params.length + 1 : Nat) else f.params.length

theorem describes_of_arity {record : FunctionRecord} {start : Nat}
    (few : f.params.length ≤ maxParameters) (hstart : record.start = UInt32.ofNat start)
    (locals : record.locals = UInt32.ofNat f.words) (arity : record.arity.toInt = f.arity)
    (sizes : record.sizes = Builder.parameterSizes f.sizes) : record.Describes f start := by
  have length : f.sizes.length = f.params.length := List.length_map _
  have isVariadic : record.isVariadic = f.variadic := by
    rw [FunctionRecord.isVariadic, Bool.eq_iff_iff, decide_eq_true_eq, Int32.lt_iff_toInt_lt, arity,
      FunctionSource.arity, Int32.toInt_zero]
    cases f.variadic with
    | false => exact iff_of_false (Int.not_lt.mpr (Int.natCast_nonneg _)) Bool.false_ne_true
    | true => exact iff_of_true (Int.neg_neg_of_pos (Int.natCast_pos.mpr (Nat.succ_pos _))) rfl
  have count : record.fixedCount = f.params.length := by
    rw [FunctionRecord.fixedCount, isVariadic, arity, FunctionSource.arity]
    cases f.variadic with
    | false => exact Nat.min_eq_left few
    | true =>
      simp only [if_true]
      omega
  refine ⟨hstart, locals, isVariadic, ?_⟩
  rw [FunctionRecord.fixedSizes, count, sizes, ← length, Builder.take_parameterSizes, f.sizes_toNat]
  rw [length]
  exact few

theorem pushFunction_describes {record : FunctionRecord} {start : Nat} (name file : String)
    (h : record.Describes f start) (entry : record.entry = 0) :
    ∃ record' : FunctionRecord, record'.Describes f start ∧ record'.entry = 0 ∧
      (b.pushFunction name file record).2.code = ⟨b.statements, b.functions.push record'⟩ := by
  obtain ⟨-, name', file', code⟩ := b.pushFunction_code name file record
  exact ⟨{ record with name := name', file := file' },
    ⟨h.start, h.locals, h.isVariadic, h.fixedSizes⟩, entry, code⟩

theorem declareRecord_describes (few : f.params.length ≤ f.maxParams) {start : Nat}
    (reserved : b.globals.size = start + f.words) :
    ∃ record : FunctionRecord, record.Describes f start ∧ record.entry = 0 ∧
      (declareRecord b f start).2.code = ⟨b.statements, b.functions.push record⟩ := by
  have locals : UInt32.ofNat b.globals.size - UInt32.ofNat start = UInt32.ofNat f.words := by
    rw [reserved, UInt32.ofNat_add, UInt32.add_comm, UInt32.add_sub_cancel]
  have length : f.sizes.length = f.params.length := List.length_map _
  unfold FunctionSource.maxParams at few
  cases variadic : f.variadic with
  | false =>
    rw [variadic] at few
    have few : f.params.length ≤ maxParameters := few
    have added : declareRecord b f start = b.addFunction f.name f.file 0 (UInt32.ofNat start)
        f.sizes (UInt32.ofNat b.globals.size - UInt32.ofNat start) := by
      rw [declareRecord, variadic]
      rfl
    rw [added, Builder.addFunction]
    refine pushFunction_describes f.name f.file ?_ rfl
    refine describes_of_arity few rfl locals ?_ rfl
    dsimp only
    rw [length, Nat.min_eq_left few, FunctionSource.arity, variadic]
    exact Int32.toInt_ofNat_of_lt (Nat.lt_of_le_of_lt few (by decide))
  | true =>
    rw [variadic] at few
    have few : f.params.length ≤ maxParameters - 1 := few
    have added : declareRecord b f start = b.addVariadic f.name f.file 0 (UInt32.ofNat start)
        f.sizes (UInt32.ofNat b.globals.size - UInt32.ofNat start) := by
      rw [declareRecord, variadic]
      rfl
    have count : min f.sizes.length (maxParameters - 1) = f.params.length := by
      rw [length, Nat.min_eq_left few]
    rw [added, Builder.addVariadic]
    refine pushFunction_describes f.name f.file ?_ rfl
    refine describes_of_arity (Nat.le_trans few (by decide)) rfl locals ?_ ?_
    · dsimp only
      rw [count, FunctionSource.arity, variadic]
      exact Int32.toInt_neg_ofNat (Nat.lt_of_le_of_lt (Nat.succ_le_succ few) (by decide))
    · dsimp only
      rw [count, ← length, List.take_length]

/-- A record of a function with its words among those of a builder. -/
structure Reserved (b : Builder) (f : FunctionSource) (record : FunctionRecord) : Prop where
  few : f.params.length ≤ f.maxParams
  placed : ∃ start, record.Describes f start ∧ start + f.words ≤ b.globals.size

/-- A record of a function with its words at a place among those of a builder. -/
structure ReservedAt (b : Builder) (f : FunctionSource) (record : FunctionRecord) (start : Nat) :
    Prop where
  few : f.params.length ≤ f.maxParams
  describes : record.Describes f start
  inside : start + f.words ≤ b.globals.size

namespace ReservedAt
variable {record : FunctionRecord} {start : Nat}

theorem reserved (h : ReservedAt b f record start) : Reserved b f record :=
  ⟨h.few, start, h.describes, h.inside⟩

theorem mono (h : ReservedAt b f record start) (le : b.globals.size ≤ b'.globals.size) :
    ReservedAt b' f record start :=
  ⟨h.few, h.describes, Nat.le_trans h.inside le⟩

theorem withEntry (h : ReservedAt b f record start) (entry : Int32) :
    ReservedAt b f { record with entry } start :=
  ⟨h.few, ⟨h.describes.start, h.describes.locals, h.describes.isVariadic, h.describes.fixedSizes⟩,
    h.inside⟩

end ReservedAt

theorem declareFunction_few (bytecode : f.builtin = none)
    (h : declareFunction b f = .ok (b', d)) : f.params.length ≤ f.maxParams := by
  unfold declareFunction at h
  rw [bytecode] at h
  by_cases surplus : f.maxParams < f.params.length
  · cases h.symm.trans (if_pos surplus)
  · exact Nat.not_lt.mp surplus

theorem declareFunction_reserved (bytecode : f.builtin = none)
    (h : declareFunction b f = .ok (b', d)) :
    ∃ record, ReservedAt b' f record b.globals.size ∧ b'.functions = b.functions.push record := by
  have few := declareFunction_few bytecode h
  have size := (declareNames_declares bytecode b 0).declares.size
  rw [FunctionSource.wordCount_own bytecode] at size
  obtain ⟨record, describes, -, code⟩ := declareRecord_describes few size
  have named := declareNames_code b f
  have names := (declareRecord_adds (declareNames b f).1 f b.globals.size).size
  rw [size] at names
  obtain ⟨rfl, -⟩ := declareFunction_bytecode bytecode h
  refine ⟨record, ⟨few, describes, Nat.le_trans names (Builder.Adds.addGlobal _ _ _).size⟩, ?_⟩
  have functions := congrArg Code.functions ((Builder.addGlobal_code _ f.name
    (.function (UInt32.ofNat (declareRecord (declareNames b f).1 f b.globals.size).1))).trans code)
  rw [show (declareNames b f).1.functions = _ from congrArg Code.functions named] at functions
  exact functions

/-- Every function of a list that is declared has a record for its words, which are behind those of the
functions before it. -/
theorem declareFunctions_reserved {fs : List FunctionSource} {declared : List Declared} (n : Nat)
    (h : declareFunctions b fs = .ok (b', declared)) {i : Nat} (hf : fs[i]? = some f)
    (bytecode : f.builtin = none) :
    ∃ d record, (fs.zip declared)[i]? = some (f, d) ∧
      ReservedAt b' f record (b.globals.size + wordCount (functionReservations n (fs.take i))) ∧
      b'.functions[b.functions.size + i]? = some record := by
  induction fs generalizing b declared i n with
  | nil => cases hf
  | cons g fs ih =>
    rw [declareFunctions] at h
    obtain ⟨⟨b₁, d⟩, hd, h⟩ := ok_of_bind h
    obtain ⟨⟨b₂, ds⟩, hds, h⟩ := ok_of_bind h
    cases h
    obtain ⟨-, other, -, code⟩ := declareFunction_ok hd
    have size : b₁.functions.size = b.functions.size + 1 := by
      rw [show b₁.functions = _ from congrArg Code.functions code, Array.size_push]
    cases i with
    | zero =>
      cases hf
      obtain ⟨record, reserved, functions⟩ := declareFunction_reserved bytecode hd
      obtain ⟨-, kept, -⟩ := declareFunctions_ok hds
      refine ⟨d, record, rfl, reserved.mono (declareFunctions_adds hds).1.size, ?_⟩
      rw [Nat.add_zero, kept _ (by omega), functions, Array.getElem?_push_size]
    | succ i =>
      obtain ⟨d', record, paired, reserved, found⟩ := ih (n + 1) hds hf
      rw [size, Nat.add_assoc, Nat.add_comm 1] at found
      rw [(declareFunction_declares hd n).1.size, Nat.add_assoc, ← wordCount_append,
        ← functionReservations_cons] at reserved
      exact ⟨d', record, paired, reserved, found⟩

theorem body_length_pos {scope : Scope} {statements : List Statement}
    (h : body b scope f = .ok statements) : 0 < statements.length := by
  obtain ⟨written, -, h⟩ := ok_of_bind h
  dsimp only at h
  split at h
  · rename_i ended
    cases h
    cases statements with
    | nil => cases ended
    | cons s rest => exact Nat.succ_pos _
  · cases h
    rw [List.length_append]
    exact Nat.succ_pos _

section bodies
variable {number : Nat} {rest pairs : List (FunctionSource × Declared)}

theorem addBody_vacant (vacant : Vacant b.functions number ((f, d) :: rest))
    (added : addBody b f d = .ok b') :
    Vacant b'.functions (number + 1) rest ∧ b'.names = b.names ∧
      (∃ more, b'.statements = b.statements ++ more) ∧
      ∀ k, k ≠ number → b'.functions[k]? = b.functions[k]? := by
  obtain ⟨rfl, -, vacant⟩ := vacant
  rcases addBody_ok added with ⟨n, -, rfl⟩ | ⟨-, statements, -, names, code⟩
  · exact ⟨vacant, rfl, ⟨#[], Array.append_empty.symm⟩, fun _ _ => rfl⟩
  · simp only [Builder.code, Code.add, Code.mk.injEq] at code
    rw [code.1, code.2]
    refine ⟨vacant.modify (Nat.lt_succ_self _) _, names, ⟨_, rfl⟩, fun k other => ?_⟩
    rw [Array.getElem?_modify, if_neg (Ne.symm other)]

theorem addBodies_kept (vacant : Vacant b.functions number pairs)
    (h : pairs.foldlM (fun b (f, d) => addBody b f d) b = .ok b') :
    (∃ more, b'.statements = b.statements ++ more) ∧
      ∀ k < number, b'.functions[k]? = b.functions[k]? := by
  induction pairs generalizing b number with
  | nil =>
    cases h
    exact ⟨⟨#[], Array.append_empty.symm⟩, fun _ _ => rfl⟩
  | cons pair pairs ih =>
    obtain ⟨f, d⟩ := pair
    rw [List.foldlM_cons] at h
    obtain ⟨b₁, added, later⟩ := ok_of_bind h
    obtain ⟨vacant, -, ⟨more, here⟩, others⟩ := addBody_vacant vacant added
    obtain ⟨⟨further, behind⟩, kept⟩ := ih vacant later
    refine ⟨⟨more ++ further, by rw [behind, here, Array.append_assoc]⟩, fun k lt => ?_⟩
    rw [kept k (Nat.lt_succ_of_lt lt), others k (Nat.ne_of_lt lt)]

/-- The record of a function with a body tells where the statements of that start, which is not at the
null statement, and what it told before. -/
theorem addBodies_entry (vacant : Vacant b.functions number pairs) (nonempty : 0 < b.statements.size)
    (h : pairs.foldlM (fun b (f, d) => addBody b f d) b = .ok b') {i : Nat}
    (hp : pairs[i]? = some (f, d)) (bytecode : f.builtin = none) {record : FunctionRecord}
    (found : b.functions[number + i]? = some record) :
    ∃ first statements,
      b'.functions[number + i]? = some { record with entry := Int32.ofNat first } ∧ 0 < first ∧
      body b d.scope f = .ok statements ∧
      ∀ j < statements.length, b'.statements[first + j]? = statements[j]? := by
  induction pairs generalizing b number i with
  | nil => cases hp
  | cons pair pairs ih =>
    obtain ⟨g, e⟩ := pair
    rw [List.foldlM_cons] at h
    obtain ⟨b₁, added, later⟩ := ok_of_bind h
    obtain ⟨vacant', names, ⟨more, grown⟩, others⟩ := addBody_vacant vacant added
    cases i with
    | zero =>
      cases hp
      obtain ⟨rfl, -, -⟩ := vacant
      rcases addBody_ok added with ⟨n, builtin, -⟩ | ⟨-, statements, assembled, -, code⟩
      · cases bytecode.symm.trans builtin
      · obtain ⟨⟨behind, placed⟩, kept⟩ := addBodies_kept vacant' later
        simp only [Builder.code, Code.add, Code.mk.injEq] at code
        refine ⟨b.statements.size, statements, ?_, nonempty, assembled, fun j hj => ?_⟩
        · rw [Nat.add_zero, kept _ (Nat.lt_succ_self _), code.2, Array.getElem?_modify, if_pos rfl,
            show b.functions[d.number]? = _ from found]
          rfl
        · have inside : b.statements.size + j < (b.statements ++ statements.toArray).size := by
            rw [Array.size_append]
            exact Nat.add_lt_add_left hj _
          rw [placed, code.1, Array.getElem?_append_left inside,
            Array.getElem?_append_right (Nat.le_add_right ..), Nat.add_sub_cancel_left,
            List.getElem?_toArray]
    | succ i =>
      have shift : number + (i + 1) = number + 1 + i := by omega
      have nonempty' : 0 < b₁.statements.size := by
        rw [grown, Array.size_append]
        exact Nat.add_pos_left nonempty _
      rw [shift] at found ⊢
      rw [← body_congr names]
      exact ih vacant' nonempty' later hp ((others _ (by omega)).trans found)

end bodies

theorem Reserved.roomy {record : FunctionRecord} (h : Reserved b f record) {size : Nat}
    (small : b.globals.size < 0x100000000) (inside : b.globals.size ≤ size)
    (slots : Address.reserved + 2 ≤ size) :
    record.locals.toNat = f.words ∧ record.Roomy size := by
  obtain ⟨few, start, ⟨hstart, locals, isVariadic, fixedSizes⟩, placed⟩ := h
  have exact_of {n : Nat} (h : n ≤ b.globals.size) : (UInt32.ofNat n).toNat = n :=
    UInt32.toNat_ofNat_of_lt (Nat.lt_of_le_of_lt h small)
  have hstart : record.start.toNat = start := by
    rw [hstart, exact_of (Nat.le_of_add_right_le placed)]
  have locals : record.locals.toNat = f.words := by
    rw [locals, exact_of (Nat.le_of_add_left_le placed)]
  have count : record.fixedCount = f.params.length := by
    rw [← record.length_fixedSizes, fixedSizes, widths, List.length_map]
  have few : f.params.length ≤ maxParameters := by
    unfold FunctionSource.maxParams at few
    split at few <;> omega
  refine ⟨locals, ?_, by omega, Nat.le_of_add_right_le slots, fun i hi => ?_⟩
  · rw [FunctionRecord.argumentSpan, FunctionRecord.slotWords, fixedSizes, isVariadic, count, locals,
      FunctionSource.words, FunctionSource.between]
    exact Nat.le_add_right _ _
  · have narrow : record.fixedSizes[i] ≤ 4 := by
      have mem : record.fixedSizes[i] ∈ widths f.params := fixedSizes ▸ List.getElem_mem hi
      obtain ⟨s, -, width⟩ := List.mem_map.mp mem
      rw [← width]
      exact s.type.width_le
    rw [record.length_fixedSizes, count] at hi
    unfold Address.argument Address.argumentWords Address.reserved maxParameters at *
    omega

theorem declarations_reserved {s : Source} {declared : List Declared}
    (h : declarations s = .ok (b, declared)) {i : Nat} (hf : s.functions[i]? = some f)
    (bytecode : f.builtin = none) :
    ∃ d record, (s.functions.zip declared)[i]? = some (f, d) ∧ ReservedAt b f record (s.startOf i) ∧
      b.functions[1 + i]? = some record := by
  obtain ⟨b₁, globals, h⟩ := ok_of_bind h
  obtain ⟨⟨b₂, ds⟩, functions, h⟩ := ok_of_bind h
  cases h
  have code := addGlobals_code globals
  rw [addFields_code, start_code] at code
  have module := (addFields_declares (start s.version) s.fields).trans (addGlobals_declares globals)
  obtain ⟨d, record, paired, reserved, found⟩ := declareFunctions_reserved 0 functions hf bytecode
  rw [show b₁.functions = _ from congrArg Code.functions code] at found
  rw [module.size, (start_declared s.version).1, Nat.add_assoc, ← wordCount_append] at reserved
  exact ⟨d, record, paired, reserved.mono (Builder.Adds.reserveWords b₂ _).size, found⟩

/-- Where an assembled function is: its record tells its words, as they were reserved, and the place of
its body, which is assembled by the names that were declared. -/
theorem assembled_placed {s : Source} (assembled : assemble s = .ok b) {i : Nat}
    (hf : s.functions[i]? = some f) (bytecode : f.builtin = none) :
    ∃ b₀ declared d record first statements,
      declarations s = .ok (b₀, declared) ∧ b.globals = b₀.globals ∧ declared[i]? = some d ∧
      b.functions[i + 1]? = some record ∧ ReservedAt b f record (s.startOf i) ∧
      record.entry = Int32.ofNat first ∧ 0 < first ∧ body b₀ d.scope f = .ok statements ∧
      ∀ j < statements.length, b.statements[first + j]? = statements[j]? := by
  rw [assemble_eq] at assembled
  obtain ⟨⟨b₀, declared⟩, declarations, added⟩ := ok_of_bind assembled
  obtain ⟨statements, -, vacant⟩ := declarations_ok declarations
  obtain ⟨d, record, paired, reserved, found⟩ := declarations_reserved declarations hf bytecode
  obtain ⟨-, globals, -, -⟩ := addBodies_add added
  have nonempty : 0 < b₀.statements.size := by
    rw [statements]
    decide
  obtain ⟨first, body, found, positive, assembled, placed⟩ :=
    addBodies_entry vacant nonempty added paired bytecode found
  rw [Nat.add_comm] at found
  have kept : b₀.globals.size ≤ b.globals.size := Nat.le_of_eq (congrArg Array.size globals.symm)
  exact ⟨b₀, declared, d, _, first, body, declarations, globals,
    (List.getElem?_zip_eq_some.mp paired).2, found, (reserved.mono kept).withEntry _, rfl, positive,
    assembled, placed⟩

theorem assembled_entry {s : Source} (assembled : assemble s = .ok b) {i : Nat}
    (hf : s.functions[i]? = some f) (bytecode : f.builtin = none) :
    ∃ b₀ declared d record first statements,
      declarations s = .ok (b₀, declared) ∧ b.globals = b₀.globals ∧ declared[i]? = some d ∧
      b.functions[i + 1]? = some record ∧ Reserved b f record ∧
      record.entry = Int32.ofNat first ∧ 0 < first ∧ body b₀ d.scope f = .ok statements ∧
      ∀ j < statements.length, b.statements[first + j]? = statements[j]? := by
  obtain ⟨b₀, declared, d, record, first, statements, declarations, globals, declares, found, reserved,
    rest⟩ := assembled_placed assembled hf bytecode
  exact ⟨b₀, declared, d, record, first, statements, declarations, globals, declares, found,
    reserved.reserved, rest⟩

/-- An assembled function starts at a statement behind the null statement, and its words, as many as
are reserved for it, have room for its arguments. -/
theorem assembled_record {s : Source} (assembled : assemble s = .ok b)
    (small : b.bytes.length < 0x80000000) {i : Nat} (hf : s.functions[i]? = some f)
    (bytecode : f.builtin = none) :
    ∃ record, b.functions[i + 1]? = some record ∧ 0 < record.entry ∧
      record.entry.toInt.toNat < b.statements.size ∧ record.locals.toNat = f.words ∧
      ∀ size, b.globals.size ≤ size → record.Roomy size := by
  have length := b.length_bytes
  simp only [Statement.size] at length
  obtain ⟨b₀, declared, d, record, first, statements, declarations, globals, -, found, reserved, entry,
    positive, body, placed⟩ := assembled_entry assembled hf bytecode
  obtain ⟨-, slots, -, -⟩ := declarations_adds declarations
  rw [← globals] at slots
  have pos := body_length_pos body
  have inside : first < b.statements.size := by
    have entered := placed 0 pos
    rw [Nat.add_zero, List.getElem?_eq_getElem pos] at entered
    exact (Array.getElem?_eq_some_iff.mp entered).1
  have low : first < 0x80000000 := by omega
  have exact_entry : record.entry.toInt = first := by rw [entry, Int32.toInt_ofNat_of_lt low]
  have roomy {size : Nat} (le : b.globals.size ≤ size) :=
    reserved.roomy (by omega) le (Nat.le_trans slots le)
  refine ⟨record, found, ?_, ?_, (roomy (Nat.le_refl _)).1, fun size le => (roomy le).2⟩
  · rw [entry]
    exact Code.ofNat_pos positive low
  · rw [exact_entry, Int.toNat_natCast]
    exact inside

end Assembly

theorem Layout.Ordered.globals_le_total {l : Layout} (h : l.Ordered) : l.globals ≤ l.total := by
  have base := h.globals_le
  have entities := h.entities
  have heap := h.heap
  omega

open Assembly

/-- Entering and leaving a function of an assembled module is the identity. On every machine with the
memory of the module, the function is refused for want of a frame or of saved locals, and then nothing
changes; or it is entered, which writes to no word but its own, and leaving it gives the machine back. -/
theorem Machine.assembled_enter_leave {source : Source} {b : Builder} {f : FunctionSource} {i : Nat}
    (assembled : assemble source = .ok b) (small : b.bytes.length < 0x80000000)
    {capacity heapBytes : Nat} {m : Module}
    (loaded : Image.load b.bytes capacity heapBytes = .ok m)
    (declared : source.functions[i]? = some f) (bytecode : f.builtin = none) {v : Machine}
    (housed : v.store.memory.words.size = m.layout.total) :
    ∃ record, m.function? (i + 1) = some record ∧ record.locals.toNat = f.words ∧
      ((v.control.calls.hasRoom = false ∧
        v.enter m (i + 1) = (.error (.stackOverflow v.control.calls.limit), v)) ∨
      (v.control.saved.hasRoom record.locals.toNat = false ∧
        v.enter m (i + 1) = (.error (.localsOverflow record.locals.toNat
          (v.control.saved.capacity - v.control.saved.used)), v)) ∨
      ∃ first v', v.enter m (i + 1) = (.ok first, v') ∧
        (∀ w : Nat, (w < record.start.toNat ∨ record.start.toNat + record.locals.toNat ≤ w) →
          v'.store.memory.words[w]? = v.store.memory.words[w]?) ∧
        v'.leave m = (.ok (), v)) := by
  obtain ⟨record, found, positive, starts, locals, roomy⟩ :=
    assembled_record assembled small declared bytecode
  obtain ⟨same, header⟩ := Builder.load_reproduces small loaded
  have laid := Image.load_layout loaded
  rw [header] at laid
  have globals : m.layout.globals = b.globals.size := by
    rw [(Layout.make_ok laid).1.1, (Builder.backToBack small).globals.2]
  have inside := (Layout.ordered_of_make laid).globals_le_total
  rw [globals, ← housed] at inside
  have found : m.function? (i + 1) = some record := by
    rw [Module.function?, same.functions]
    exact found
  rw [← same.statements] at starts
  refine ⟨record, found, locals, ?_⟩
  rcases enter_leave found (Nat.succ_ne_zero i) positive starts (roomy _ inside) with refused |
    refused | ⟨v', entered, kept, left⟩
  · exact .inl refused
  · exact .inr (.inl refused)
  · exact .inr (.inr ⟨_, v', entered, kept, left⟩)

def collect : FunctionSource where
  name := "collect"
  file := ""
  builtin := none
  params := [⟨"origin", .vector⟩, ⟨"turn", .quaternion⟩]
  locals := [⟨"sum", .float⟩]
  variadic := true
  statements := [[.name "done"]]

def collecting : Source := ⟨none, [], [], [collect]⟩

theorem collecting_assembles : (assemble collecting).toOption.isSome := by
  simp only [assemble, addBody, body, statement, ofMnemonic?_eq_find?]
  decide +kernel

def collectingBuilder : Builder := (assemble collecting).toOption.get collecting_assembles

theorem collecting_loads :
    (Machine.load collectingBuilder.bytes 0 0 { deadbeefLocals := true }).toOption.isSome := by
  simp only [collectingBuilder, assemble, addBody, body, statement, ofMnemonic?_eq_find?]
  decide +kernel

def collectingMachine : Machine :=
  (Machine.load collectingBuilder.bytes 0 0 { deadbeefLocals := true }).toOption.get
    collecting_loads

theorem collectingMachine_load :
    Machine.load collectingBuilder.bytes 0 0 { deadbeefLocals := true } = .ok collectingMachine :=
  Session.eq_ok_get collecting_loads

def collector : Machine := { collectingMachine with argc := 4 }

/-- The function has 28 words, and they are as before once it is left. -/
theorem collector_restored :
    assemble collecting = .ok collectingBuilder ∧ collectingBuilder.bytes.length < 0x80000000 ∧
      Image.load collectingBuilder.bytes 0 0 = .ok collector.program ∧
      collector.store.memory.words.size = collector.program.layout.total ∧
      ∃ first v', collector.enter collector.program 1 = (.ok first, v') ∧
        v'.leave collector.program = (.ok (), collector) := by
  have assembled : assemble collecting = .ok collectingBuilder :=
    Session.eq_ok_get collecting_assembles
  obtain ⟨small, size, frame, room⟩ : collectingBuilder.bytes.length < 0x80000000 ∧
      collector.store.memory.words.size = collector.program.layout.total ∧
      collector.control.calls.hasRoom = true ∧
      ((collector.program.function? 1).all
        fun f => collector.control.saved.hasRoom f.locals.toNat) = true := by
    simp only [collector, collectingMachine, collectingBuilder, assemble, addBody, body, statement,
      ofMnemonic?_eq_find?]
    decide +kernel
  have loaded : Image.load collectingBuilder.bytes 0 0 = .ok collector.program := by
    simp only [collector]
    exact (Machine.load_ok collectingMachine_load).1.1
  have declared : collecting.functions[0]? = some collect := rfl
  refine ⟨assembled, small, loaded, size, ?_⟩
  obtain ⟨record, found, -, ⟨refused, -⟩ | ⟨refused, -⟩ | ⟨first, v', entered, -, left⟩⟩ :=
    Machine.assembled_enter_leave assembled small loaded declared rfl size
  · cases refused.symm.trans frame
  · rw [show collector.program.function? 1 = _ from found, Option.all_some] at room
    cases refused.symm.trans room
  · exact ⟨first, v', entered, left⟩

end GameBytecode
