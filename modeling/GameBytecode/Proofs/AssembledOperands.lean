import GameBytecode.Proofs.AssembledBodies
import GameBytecode.Proofs.StatementTable

/-!
Assembled modules pass the check. Whatever a name stands for, it is the address of a word reserved
before bodies are assembled, and the two words behind the last of these leave room for three; so
operands that are names suit slots of every type.
-/
namespace GameBytecode

namespace Validation
variable {m : Module} {index : Nat} {op : Opcode} {s : Statement}

theorem ok_then {x y : Except ValidationError Unit} (hx : x = .ok ()) (hy : y = .ok ()) :
    (do x; y) = .ok () := by
  rw [hx]
  exact hy

theorem flaw?_eq_none {globals : Nat} {type : ValueType} {operand : UInt16}
    (unused : type = .void → operand = 0)
    (fits : 0 < type.span → operand.toNat + type.span ≤ globals) :
    flaw? globals type operand = none := by
  cases type with
  | immediate => rfl
  | void => exact if_pos (unused rfl)
  | _ =>
    have inside := fits (by decide)
    have first : operand.toNat < globals :=
      Nat.lt_of_lt_of_le (Nat.lt_add_of_pos_right (by decide)) inside
    exact (if_neg (Nat.not_le.mpr first)).trans (if_neg (Nat.not_lt.mpr inside))

/-- A statement passes if its opcode is in the version of the module, its unused operands are 0, the
words counted for the others are globals, and its branch leads to a statement. -/
theorem checkStatement_of (opcode : Opcode.ofCode? s.op = some op)
    (allowed : op.allowedIn m.version = true)
    (unused : ∀ slot, op.checkedOperands.get slot = .void → s.slot slot = 0)
    (fits : ∀ slot, 0 < op.span slot →
      (s.slot slot).toNat + op.span slot ≤ m.header.globals.count.toNat)
    (lands : ∀ target, s.branchTarget? index = some target → m.HasStatement target) :
    checkStatement m index s = .ok () := by
  have operand (slot : Opcode.Slot) :
      checkOperand m index op slot (op.checkedOperands.get slot) (s.slot slot) = .ok () := by
    simp only [checkOperand]
    rw [flaw?_eq_none (unused slot) (fits slot)]
  have branch {o : UInt16} (h : s.branchTarget? index = some (index + signedOperand o)) :
      checkBranch m index op o = .ok () := by
    obtain ⟨low, high⟩ := lands _ h
    simp only [checkBranch]
    rw [if_neg (by omega)]
  have operands := ok_then (operand .a) (ok_then (operand .b) (operand .c))
  unfold Statement.branchTarget? at branch
  rw [opcode] at branch
  unfold checkStatement
  rw [opcode]
  dsimp only
  rw [if_pos allowed]
  cases op with
  | branch condition =>
    exact ok_then (operand .a) (branch rfl)
  | goto => exact branch rfl
  | _ => exact operands

theorem check_of (h : ∀ index s, m.statements[index]? = some s →
    checkStatement m index s = .ok ()) : check m = .ok () := by
  have run (statements : List Statement) (first : Nat)
      (h : ∀ i s, statements[i]? = some s → checkStatement m (first + i) s = .ok ()) :
      checkFrom m first statements = .ok () := by
    induction statements generalizing first with
    | nil => rfl
    | cons s rest ih =>
      refine ok_then (h 0 s rfl) (ih (first + 1) fun i t ht => ?_)
      rw [Nat.add_assoc, Nat.add_comm 1]
      exact h (i + 1) t ht
  refine run m.statements.toList 0 fun i s hs => ?_
  rw [Nat.zero_add]
  exact h i s ((Array.getElem?_toList ..).symm.trans hs)

end Validation

/-- Names of words among the first of a number of words. -/
def Assembly.Scope.Below (scope : Assembly.Scope) (size : Nat) : Prop :=
  ∀ p ∈ scope, p.2.toNat < size

namespace Assembly.Scope.Below
variable {scope : Scope} {size : Nat}

theorem nil (size : Nat) : Below [] size := fun _ h => absurd h List.not_mem_nil

theorem mono (h : Below scope size) {size' : Nat} (le : size ≤ size') : Below scope size' :=
  fun p hp => Nat.lt_of_lt_of_le (h p hp) le

theorem lookup (h : Below scope size) {name : String} {address : UInt16}
    (found : scope.lookup name = some address) : address.toNat < size := by
  obtain ⟨before, after, rfl, -⟩ := List.lookup_eq_some_iff.mp found
  exact h _ (List.mem_append_right _ List.mem_cons_self)

end Assembly.Scope.Below

theorem ValueType.width_pos (type : ValueType) : 0 < type.width := by cases type <;> decide

theorem ValueType.width_le (type : ValueType) : type.width ≤ 4 := by cases type <;> decide

namespace Builder

/-- A builder with at least the words and the names of another one, of which the names that were
added are those of words. -/
structure Adds (b b' : Builder) : Prop where
  version : b'.version = b.version
  size : b.globals.size ≤ b'.globals.size
  names : ∀ p ∈ b'.names, p ∈ b.names ∨ p.2.toNat < b'.globals.size

namespace Adds
variable {b b' b'' : Builder}

theorem refl (b : Builder) : b.Adds b := ⟨rfl, Nat.le_refl _, fun _ => .inl⟩

theorem trans (h : b.Adds b') (h' : b'.Adds b'') : b.Adds b'' := by
  refine ⟨h'.version.trans h.version, Nat.le_trans h.size h'.size, ?_⟩
  intro p hp
  rcases h'.names p hp with before | here
  · exact (h.names p before).imp_right fun inside => Nat.lt_of_lt_of_le inside h'.size
  · exact .inr here

theorem below (h : b.Adds b') (names : Assembly.Scope.Below b.names b.globals.size) :
    Assembly.Scope.Below b'.names b'.globals.size := by
  intro p hp
  exact (h.names p hp).elim (fun before => names.mono h.size p before) id

variable (b)

theorem addString (text : String) : b.Adds (b.addString text).2 := by
  obtain ⟨strings, interned, h⟩ := b.addString_cases text
  rw [h]
  exact ⟨rfl, Nat.le_refl _, fun _ => .inl⟩

theorem reserveWords (count : Nat) : b.Adds (b.reserveWords count).2 := by
  refine ⟨rfl, ?_, fun _ => .inl⟩
  simp only [Builder.reserveWords, Array.size_append]
  exact Nat.le_add_right _ _

theorem addDef {name : String} {type : ValueType} {offset : UInt16}
    (inside : offset.toNat < b.globals.size) : b.Adds (b.addDef name type offset) := by
  obtain ⟨strings, interned, h⟩ := b.addString_cases name
  simp only [Builder.addDef, h]
  refine ⟨rfl, Nat.le_refl _, fun p hp => (List.mem_append.mp hp).imp_right fun last => ?_⟩
  rw [List.mem_singleton.mp last]
  exact inside

theorem pushFunction (name file : String) (f : FunctionRecord) :
    b.Adds (b.pushFunction name file f).2 := by
  have added := (addString b name).trans (addString (b.addString name).2 file)
  exact ⟨added.version, added.size, added.names⟩

theorem reserved (count : Nat) (positive : 0 < count) :
    (b.reserveWords count).1.toNat < (b.reserveWords count).2.globals.size := by
  simp only [Builder.reserveWords, Array.size_append, Array.size_replicate, UInt16.toNat_ofNat']
  omega

theorem setGlobals {globals : Array Word} (size : globals.size = b.globals.size) :
    b.Adds { b with globals } := ⟨rfl, Nat.le_of_eq size.symm, fun _ => .inl⟩

theorem addGlobal (name : String) (value : Value) : b.Adds (b.addGlobal name value).2 := by
  have count : 0 < max value.words.length 1 := by omega
  have words := (reserveWords b (max value.words.length 1)).trans
    (setGlobals _ (Memory.size_setWords _ (b.reserveWords (max value.words.length 1)).1.toNat
      value.words))
  refine words.trans (addDef _ ?_)
  rw [Memory.size_setWords]
  exact reserved b _ count

theorem addField (name : String) (type : ValueType) : b.Adds (b.addField name type).2 := by
  have added := addString b name
  exact ⟨added.version, added.size, added.names⟩

end Adds
end Builder

namespace Assembly
variable {b b' : Builder}

theorem addField_adds (b : Builder) (s : Symbol) : b.Adds (addField b s) :=
  (Builder.Adds.addField b s.name s.type).trans (.addGlobal _ _ _)

theorem addGlobal_adds {g : GlobalSource} (h : addGlobal b g = .ok b') : b.Adds b' := by
  simp only [addGlobal] at h
  split at h
  · cases h
    exact (Builder.Adds.addString _ _).trans (.addGlobal _ _ _)
  · cases h
    exact .addGlobal _ _ _
  · cases h

theorem addGlobals_adds {globals : List GlobalSource} (h : globals.foldlM addGlobal b = .ok b') :
    b.Adds b' :=
  foldlM_invariant (P := fun b' => b.Adds b') h (.refl b) fun _ _ _ _ adds added =>
    adds.trans (addGlobal_adds added)

theorem addFields_adds (b : Builder) (fields : List Symbol) : b.Adds (fields.foldl addField b) :=
  List.foldlRecOn (motive := fun b' => b.Adds b') fields _ (.refl b) fun b' added field _ =>
    added.trans (addField_adds b' field)

theorem declare_adds (s : Symbol) {scope : Scope} (below : scope.Below b.globals.size) :
    b.Adds (declare b scope s).1 ∧
      Scope.Below (declare b scope s).2 (declare b scope s).1.globals.size := by
  have inside := Builder.Adds.reserved b s.type.width s.type.width_pos
  have adds : b.Adds (declare b scope s).1 :=
    (Builder.Adds.reserveWords b s.type.width).trans (.addDef _ inside)
  refine ⟨adds, ?_⟩
  intro p hp
  rcases List.mem_cons.mp hp with rfl | hp
  · exact Nat.lt_of_lt_of_le inside (Builder.Adds.addDef _ inside).size
  · exact below.mono adds.size p hp

theorem declareAll_adds (symbols : List Symbol) {scope : Scope}
    (below : scope.Below b.globals.size) :
    b.Adds (declareAll b scope symbols).1 ∧
      Scope.Below (declareAll b scope symbols).2 (declareAll b scope symbols).1.globals.size := by
  induction symbols generalizing b scope with
  | nil => exact ⟨.refl _, below⟩
  | cons s symbols ih =>
    obtain ⟨declared, below⟩ := declare_adds s below
    obtain ⟨rest, below⟩ := ih below
    exact ⟨declared.trans rest, below⟩

theorem declareNames_adds (b : Builder) (f : FunctionSource) :
    b.Adds (declareNames b f).1 ∧
      Scope.Below (declareNames b f).2 (declareNames b f).1.globals.size := by
  obtain ⟨params, below⟩ := declareAll_adds (b := b) f.params (.nil _)
  simp only [declareNames]
  cases f.variadic with
  | false =>
    obtain ⟨locals, below⟩ := declareAll_adds f.locals below
    exact ⟨params.trans locals, below⟩
  | true =>
    obtain ⟨further, below⟩ := declareAll_adds variadicSymbols below
    have slots := Builder.Adds.reserveWords
      (declareAll (declareAll b [] f.params).1 (declareAll b [] f.params).2 variadicSymbols).1
      ((maxParameters - f.params.length) * Address.argumentWords)
    obtain ⟨locals, below⟩ := declareAll_adds f.locals (below.mono slots.size)
    exact ⟨((params.trans further).trans slots).trans locals, below⟩

theorem declareRecord_adds (b : Builder) (f : FunctionSource) (start : Nat) :
    b.Adds (declareRecord b f start).2 := by
  simp only [declareRecord]
  cases f.variadic
  · exact .pushFunction b _ _ _
  · exact .pushFunction b _ _ _

theorem declareFunction_adds {f : FunctionSource} {d : Declared}
    (h : declareFunction b f = .ok (b', d)) :
    b.Adds b' ∧ Scope.Below d.scope b'.globals.size := by
  cases builtin : f.builtin with
  | some n =>
    simp only [declareFunction, builtin] at h
    cases h
    exact ⟨(Builder.Adds.pushFunction _ _ _ _).trans (.addGlobal _ _ _), .nil _⟩
  | none =>
    obtain ⟨named, below⟩ := declareNames_adds b f
    obtain ⟨rfl, rfl⟩ := declareFunction_bytecode builtin h
    have added := (declareRecord_adds (declareNames b f).1 f b.globals.size).trans
      (.addGlobal _ f.name
        (.function (UInt32.ofNat (declareRecord (declareNames b f).1 f b.globals.size).1)))
    exact ⟨named.trans added, below.mono added.size⟩

theorem declareFunctions_adds {fs : List FunctionSource} {declared : List Declared}
    (h : declareFunctions b fs = .ok (b', declared)) :
    b.Adds b' ∧ ∀ d ∈ declared, Scope.Below d.scope b'.globals.size := by
  induction fs generalizing b declared with
  | nil =>
    cases h
    exact ⟨.refl _, nofun⟩
  | cons f fs ih =>
    rw [declareFunctions] at h
    obtain ⟨⟨b₁, d⟩, hd, h⟩ := ok_of_bind h
    obtain ⟨⟨b₂, ds⟩, hds, h⟩ := ok_of_bind h
    cases h
    obtain ⟨first, below⟩ := declareFunction_adds hd
    obtain ⟨rest, belows⟩ := ih hds
    exact ⟨first.trans rest, List.forall_mem_cons.mpr ⟨below.mono rest.size, belows⟩⟩

theorem reservedNames_below : Scope.Below reservedNames Address.reserved := by
  intro p hp
  rcases List.mem_cons.mp hp with rfl | hp
  · decide
  · obtain ⟨n, hn, rfl⟩ := List.mem_map.mp hp
    have few : n < maxParameters := List.mem_range.mp hn
    have inside : Address.argument n < Address.reserved := by
      unfold Address.argument Address.argumentWords Address.reserved maxParameters at *
      omega
    exact Nat.lt_of_le_of_lt (Nat.mod_le _ _) inside

theorem start_adds (version : Option UInt32) :
    Builder.Adds { Builder.empty with version := version.getD extendedVersion }
      (start version) := by
  have reserved : Address.reserved ≤ Builder.empty.globals.size :=
    Nat.le_of_eq Array.size_replicate.symm
  have run {name : Builder → String × UInt16 → Builder}
      (names : ∀ b p, name b p = b.addDef p.1 .vector p.2) (b : Builder)
      (room : Address.reserved ≤ b.globals.size) : b.Adds (reservedNames.foldl name b) := by
    refine List.foldlRecOn reservedNames _ (.refl b) fun b' adds p hp => ?_
    have inside := Nat.lt_of_lt_of_le (reservedNames_below p hp) (Nat.le_trans room adds.size)
    rw [names]
    exact adds.trans (.addDef _ inside)
  cases version with
  | none => exact run (fun _ _ => rfl) .empty reserved
  | some v => exact run (fun _ _ => rfl) (Builder.empty.setVersion v) reserved

/-- Every name that is declared is that of a word, and two more words are behind it. -/
theorem declarations_adds {s : Source} {declared : List Declared}
    (h : declarations s = .ok (b, declared)) :
    b.version = s.version.getD extendedVersion ∧ Address.reserved + 2 ≤ b.globals.size ∧
      Scope.Below b.names (b.globals.size - 2) ∧
      ∀ d ∈ declared, Scope.Below d.scope (b.globals.size - 2) := by
  obtain ⟨b₁, globals, h⟩ := ok_of_bind h
  obtain ⟨⟨b₂, ds⟩, functions, h⟩ := ok_of_bind h
  cases h
  obtain ⟨added, belows⟩ := declareFunctions_adds functions
  have adds := (start_adds s.version).trans
    ((addFields_adds _ s.fields).trans ((addGlobals_adds globals).trans added))
  have size : (b₂.reserveWords (Address.argumentWords - 1)).2.globals.size =
      b₂.globals.size + 2 := by
    simp only [Builder.reserveWords, Array.size_append, Array.size_replicate]
    rfl
  have reserved : Address.reserved ≤ b₂.globals.size := adds.size
  rw [size, Nat.add_sub_cancel]
  exact ⟨adds.version, Nat.add_le_add_right reserved 2, adds.below (.nil _), belows⟩

theorem addBody_adds {f : FunctionSource} {d : Declared} (h : addBody b f d = .ok b') :
    b'.version = b.version ∧ b'.globals = b.globals ∧ b'.names = b.names ∧
      ∀ st ∈ b'.statements, st ∈ b.statements ∨
        ∃ statements, body b d.scope f = .ok statements ∧ st ∈ statements := by
  simp only [addBody] at h
  split at h
  · cases h
    exact ⟨rfl, rfl, rfl, fun _ => .inl⟩
  · obtain ⟨statements, assembled, h⟩ := ok_of_bind h
    cases h
    refine ⟨rfl, rfl, rfl, fun st hst => ?_⟩
    exact (Array.mem_append.mp hst).imp_right fun new =>
      ⟨statements, assembled, List.mem_toArray.mp new⟩

theorem addBodies_add {pairs : List (FunctionSource × Declared)}
    (h : pairs.foldlM (fun b (f, d) => addBody b f d) b = .ok b') :
    b'.version = b.version ∧ b'.globals = b.globals ∧ b'.names = b.names ∧
      ∀ st ∈ b'.statements, st ∈ b.statements ∨ ∃ p ∈ pairs, ∃ statements,
        body b p.2.scope p.1 = .ok statements ∧ st ∈ statements := by
  refine foldlM_invariant (P := fun b' => b'.version = b.version ∧ b'.globals = b.globals ∧
    b'.names = b.names ∧ ∀ st ∈ b'.statements, st ∈ b.statements ∨ ∃ p ∈ pairs, ∃ statements,
      body b p.2.scope p.1 = .ok statements ∧ st ∈ statements) h
    ⟨rfl, rfl, rfl, fun _ => .inl⟩ ?_
  rintro b₁ p b₂ hp ⟨version, globals, names, statements⟩ added
  obtain ⟨version', globals', names', statements'⟩ := addBody_adds added
  refine ⟨version'.trans version, globals'.trans globals, names'.trans names, fun st hst => ?_⟩
  rw [body_congr names] at statements'
  rcases statements' st hst with before | here
  · exact statements st before
  · exact .inr ⟨p, hp, here⟩

end Assembly

namespace Opcode

def Slot.index : Slot → Nat
  | .a => 0 | .b => 1 | .c => 2

theorem span_le {code : UInt16} {op : Opcode} (h : ofCode? code = some op) (slot : Slot) :
    op.span slot ≤ 3 := by
  have listed : ∀ op ∈ table.toList, ∀ slot ∈ [Slot.a, .b, .c], op.span slot ≤ 3 := by
    decide +kernel
  refine listed op (Array.mem_toList_iff.mpr (Array.mem_of_getElem? h)) slot ?_
  cases slot <;> decide

/-- The types that an opcode declares, with a value that a return takes. The check is stricter: done
declares a second operand, and may not have one. -/
def declaredOperands (op : Opcode) : Operands :=
  match op with
  | done | ret => { op.operands with a := .vector }
  | _ => op.operands

theorem allowedIn_extended (op : Opcode) : op.allowedIn extendedVersion = true :=
  if_neg (by decide)

end Opcode

/-- A statement with an opcode whose operands are 0 where the types that are given for it make them
unused, and where they do not, are addresses of the first of a number of words. -/
def Statement.Within (types : Opcode → Opcode.Operands) (size : Nat) (s : Statement) : Prop :=
  ∃ op, Opcode.ofCode? s.op = some op ∧ ∀ slot,
    ((types op).get slot = .void → s.slot slot = 0) ∧
    (0 < ((types op).get slot).span → (s.slot slot).toNat < size)

theorem Statement.within_done (types : Opcode → Opcode.Operands) {size : Nat}
    (reserved : Address.reserved ≤ size) : Within types size ⟨Opcode.done.code, 0, 0, 0⟩ := by
  have first : (0 : UInt16).toNat < size := Nat.lt_of_lt_of_le (by decide) reserved
  refine ⟨.done, Assembly.ofCode?_done, fun slot => ?_⟩
  cases slot <;> exact ⟨fun _ => rfl, fun _ => first⟩

namespace Assembly

/-- Whether what is written in a slot, if anything, is what its type asks for: a number in a slot
that holds one, nothing in an unused slot, and a name in any other. What is left out before other
operands is written 0. -/
def suits (type : ValueType) : Option Operand → Bool
  | none => true
  | some (.number n) => n = 0 ∨ type = .immediate
  | some (.name _) => type ≠ .immediate ∧ type ≠ .void

/-- Whether the operands of a statement suit the types that are given for its opcode. -/
def suited (types : Opcode → Opcode.Operands) : List Operand → Bool
  | .name mnemonic :: rest => (Opcode.ofMnemonic? mnemonic).all fun op =>
    [Opcode.Slot.a, .b, .c].all fun slot => suits ((types op).get slot) rest[slot.index]?
  | _ => true

def Source.suited (types : Opcode → Opcode.Operands) (s : Source) : Bool :=
  s.functions.all fun f => f.statements.all fun parts => Assembly.suited types parts

/-- The scopes in which the names of a source are looked up: that of the module alone, and those of
its functions. -/
def Source.scopes (s : Source) : List Scope :=
  match declarations s with
  | .error _ => []
  | .ok (_, declared) => [] :: declared.map (·.scope)

/-- Whether every relative branch of a builder leads to a statement. -/
def branchesLand (b : Builder) : Bool :=
  b.statements.toList.zipIdx.all fun (st, index) =>
    (st.branchTarget? index).all (lands b.statements.size)

section operands
variable {b : Builder} {scope : Scope} {size : Nat} (reserved : Address.reserved ≤ size)
  (names : Scope.Below b.names size) (below : scope.Below size)
include reserved names below

theorem resolve?_below {name : String} {address : UInt16}
    (h : resolve? b scope name = some address) : address.toNat < size := by
  unfold resolve? at h
  rcases Option.or_eq_some_iff.mp h with found | ⟨-, h⟩
  · exact below.lookup found
  · rcases Option.or_eq_some_iff.mp h with found | ⟨-, found⟩
    · exact (reservedNames_below.mono reserved).lookup found
    · exact names.lookup found

/-- An operand that suits its slot is 0 where nothing is used, and else the address of a word. -/
theorem operand_below {function : String} {type : ValueType} {o : Operand} {word : UInt16}
    (suits : suits type (some o)) (h : operand b scope function o = .ok word) :
    (type = .void → word = 0) ∧ (0 < type.span → word.toNat < size) := by
  cases o with
  | number n =>
    rcases of_decide_eq_true suits with rfl | rfl
    · have zero : operand b scope function (.number 0) = .ok 0 := rfl
      cases zero.symm.trans h
      exact ⟨fun _ => rfl, fun _ => Nat.lt_of_lt_of_le (by decide) reserved⟩
    · exact ⟨nofun, fun used => absurd used (Nat.lt_irrefl 0)⟩
  | name s =>
    obtain ⟨-, used⟩ := of_decide_eq_true suits
    refine ⟨fun unused => absurd unused used, fun _ => ?_⟩
    simp only [operand] at h
    cases found : resolve? b scope s with
    | none =>
      rw [found] at h
      cases h
    | some address =>
      rw [found] at h
      cases h
      exact resolve?_below reserved names below found

theorem statement_within {types : Opcode → Opcode.Operands} {function : String} {index : Nat}
    {parts : List Operand} {st : Statement} (suited : suited types parts)
    (h : statement b scope function index parts = .ok st) : st.Within types size := by
  obtain ⟨mnemonic, rest, op, slots, rfl, known, assembled, rfl⟩ := statement_ok h
  refine ⟨op, ofCode?_of_mnemonic known, fun slot => ?_⟩
  have suits : suits ((types op).get slot) rest[slot.index]? := by
    simp only [Assembly.suited, known, Option.all_some, List.all_eq_true] at suited
    refine suited slot ?_
    cases slot <;> decide
  have written : (⟨op.code, slots.getD 0 0, slots.getD 1 0, slots.getD 2 0⟩ : Statement).slot slot =
      slots.getD slot.index 0 := by
    cases slot <;> rfl
  rw [written]
  rcases getD_of_mapM_ok assembled slot.index 0 with ⟨-, absent⟩ | ⟨o, at_slot, operand⟩
  · rw [absent]
    exact ⟨fun _ => rfl, fun _ => Nat.lt_of_lt_of_le (by decide) reserved⟩
  · rw [at_slot] at suits
    exact operand_below reserved names below suits operand

theorem body_within {types : Opcode → Opcode.Operands} {f : FunctionSource}
    {statements : List Statement} (suited : f.statements.all (suited types))
    (h : body b scope f = .ok statements) {st : Statement} (hst : st ∈ statements) :
    st.Within types size := by
  obtain ⟨written, hw, h⟩ := ok_of_bind h
  have within : ∀ st ∈ written, st.Within types size := by
    intro st hst
    obtain ⟨⟨parts, index⟩, mem, assembled⟩ := mem_of_mapM_ok hw hst
    have suited := List.all_eq_true.mp suited parts (List.fst_mem_of_mem_zipIdx mem)
    exact statement_within reserved names below suited assembled
  dsimp only at h
  split at h
  · cases h
    exact within st hst
  · cases h
    rcases List.mem_append.mp hst with hst | hst
    · exact within st hst
    · rw [List.mem_singleton.mp hst]
      exact Statement.within_done types reserved

end operands

theorem assemble_within {s : Source} {b : Builder} {types : Opcode → Opcode.Operands}
    (suited : s.suited types) (h : assemble s = .ok b) :
    b.version = s.version.getD extendedVersion ∧ Address.reserved + 2 ≤ b.globals.size ∧
      (∀ scope ∈ s.scopes, ∀ name address, resolve? b scope name = some address →
        address.toNat < b.globals.size - 2) ∧
      ∀ st ∈ b.statements, st.Within types (b.globals.size - 2) := by
  rw [assemble_eq] at h
  obtain ⟨⟨b₀, declared⟩, declarations, added⟩ := ok_of_bind h
  obtain ⟨version, room, names, belows⟩ := declarations_adds declarations
  obtain ⟨version', globals, names', statements⟩ := addBodies_add added
  rw [← globals] at room names belows
  rw [← names'] at names
  have reserved : Address.reserved ≤ b.globals.size - 2 := by omega
  refine ⟨version'.trans version, room, ?_, ?_⟩
  · intro scope hs name address found
    simp only [Source.scopes, declarations] at hs
    rcases List.mem_cons.mp hs with rfl | hs
    · exact resolve?_below reserved names (.nil _) found
    · obtain ⟨d, hd, rfl⟩ := List.mem_map.mp hs
      exact resolve?_below reserved names (belows d hd) found
  · intro st hst
    obtain ⟨first, -, -⟩ := declarations_ok declarations
    rcases statements st hst with null | ⟨p, hp, body', assembled, mem⟩
    · rw [first, Array.mem_singleton] at null
      rw [null]
      exact Statement.within_done types reserved
    · obtain ⟨hf, hd⟩ := List.of_mem_zip hp
      rw [← body_congr names'] at assembled
      exact body_within reserved names (belows p.2 hd) (List.all_eq_true.mp suited p.1 hf)
        assembled mem

/-- Assembled modules pass the check. If operands suit the types that the check takes them to have
and relative branches lead to statements, no statement is refused; and whatever the type of a name,
three words can be taken from its address on. -/
theorem assembled_passes {s : Source} {b : Builder}
    (extended : s.version.getD extendedVersion = extendedVersion) (assembled : assemble s = .ok b)
    (small : b.bytes.length < 0x80000000) (suited : s.suited Opcode.checkedOperands)
    (branches : branchesLand b) {capacity heapBytes : Nat} {m : Module}
    (loaded : Image.load b.bytes capacity heapBytes = .ok m) :
    Validation.check m = .ok () ∧
      ∀ scope ∈ s.scopes, ∀ name address, resolve? b scope name = some address →
        address.toNat + 3 ≤ m.header.globals.count.toNat := by
  obtain ⟨version, room, scopes, statements⟩ := assemble_within suited assembled
  obtain ⟨same, header⟩ := Builder.load_reproduces small loaded
  have count : m.header.globals.count.toNat = b.globals.size := by
    rw [header]
    exact (Builder.backToBack small).globals.2
  rw [count]
  constructor
  · refine Validation.check_of fun index st fetched => ?_
    rw [same.statements] at fetched
    obtain ⟨op, opcode, operands⟩ := statements st (Array.mem_of_getElem? fetched)
    refine Validation.checkStatement_of opcode ?_ (fun slot => (operands slot).1) ?_ ?_
    · rw [Module.version, header, show b.header.version = _ from version.trans extended]
      exact op.allowedIn_extended
    · intro slot used
      have inside := (operands slot).2 used
      have width := Opcode.span_le opcode slot
      rw [count]
      omega
    · intro target ht
      have landing := List.all_eq_true.mp branches (st, index)
        (List.mk_mem_zipIdx_iff_getElem?.mpr ((Array.getElem?_toList ..).trans fetched))
      simp only [ht, Option.all_some, lands, Bool.and_eq_true, decide_eq_true_eq] at landing
      rw [Module.HasStatement, same.statements]
      exact landing
  · intro scope hs name address found
    have inside := scopes scope hs name address found
    omega

/-- A source whose function branches to the return of the last of its locals. -/
def returning : Source where
  version := none
  fields := []
  globals := []
  functions := [⟨"main", "", none, [⟨"angles", .vector⟩], [⟨"t", .float⟩], true,
    [[.name "if", .name "argc", .number 1], [.name "return", .name "t"]]⟩]

theorem returning_assembles : returning.suited Opcode.checkedOperands ∧
    (assemble returning).toOption.any fun b => b.bytes.length < 0x80000000 ∧ branchesLand b ∧
      (Image.load b.bytes 1 0).toOption.isSome := by
  simp only [assemble, addBody, body, statement, Source.suited, Assembly.suited,
    ofMnemonic?_eq_find?]
  decide +kernel

theorem returning_passes : ∃ b m,
    returning.version.getD extendedVersion = extendedVersion ∧ assemble returning = .ok b ∧
      b.bytes.length < 0x80000000 ∧ returning.suited Opcode.checkedOperands ∧ branchesLand b ∧
      Image.load b.bytes 1 0 = .ok m ∧ Validation.check m = .ok () ∧
        ∀ scope ∈ returning.scopes, ∀ name address, resolve? b scope name = some address →
          address.toNat + 3 ≤ m.header.globals.count.toNat := by
  obtain ⟨suited, facts⟩ := returning_assembles
  obtain ⟨b, assembled, facts⟩ := (Option.any_eq_true _ _).mp facts
  obtain ⟨small, branches, loads⟩ := of_decide_eq_true facts
  have assembled := ok_of_toOption assembled
  have loaded := Session.eq_ok_get loads
  exact ⟨b, _, rfl, assembled, small, suited, branches, loaded,
    assembled_passes rfl assembled small suited branches loaded⟩

/-- A source whose function ends with two operands where only one is used. -/
def overfull : Source where
  version := none
  fields := []
  globals := []
  functions :=
    [⟨"main", "", none, [], [], false, [[.name "done", .name "return", .name "return"]]⟩]

theorem overfull_assembles : overfull.suited Opcode.declaredOperands ∧
    (assemble overfull).toOption.any fun b => b.bytes.length < 0x80000000 ∧ branchesLand b ∧
      (Image.load b.bytes 1 0).toOption.any fun m => (Validation.check m).toOption = none := by
  simp only [assemble, addBody, body, statement, Source.suited, Assembly.suited,
    ofMnemonic?_eq_find?]
  decide +kernel

theorem overfull_fails : ∃ b m,
    overfull.version.getD extendedVersion = extendedVersion ∧ assemble overfull = .ok b ∧
      b.bytes.length < 0x80000000 ∧ overfull.suited Opcode.declaredOperands ∧ branchesLand b ∧
      Image.load b.bytes 1 0 = .ok m ∧ Validation.check m ≠ .ok () := by
  obtain ⟨suited, facts⟩ := overfull_assembles
  obtain ⟨b, assembled, facts⟩ := (Option.any_eq_true _ _).mp facts
  obtain ⟨small, branches, facts⟩ := of_decide_eq_true facts
  obtain ⟨m, loaded, fails⟩ := (Option.any_eq_true _ _).mp facts
  refine ⟨b, m, rfl, ok_of_toOption assembled, small, suited, branches, ok_of_toOption loaded, ?_⟩
  intro passes
  rw [passes] at fails
  cases of_decide_eq_true fails

end Assembly
end GameBytecode
