import GameBytecode.Proofs.DeclaredNames
import GameBytecode.Proofs.Lookups
import GameBytecode.Proofs.TextBytes

/-!
Names and texts in a module that was written and loaded. A builder adds each text once, with a zero byte
behind it, and what it answers reads that text in every later table; so the names of functions, fields
and globals in the loaded module are those that were added, in order, and the first of a name is found.
-/
namespace GameBytecode
open Text (Bytes)

theorem getElem?_placed {table : Array UInt8} {before after : Bytes}
    (parts : table.toList = before ++ after) : table[before.length]? = after[0]? := by
  rw [← Array.getElem?_toList, parts, List.getElem?_append_right (Nat.le_refl _), Nat.sub_self]

theorem stringFrom_placed {table : Array UInt8} {before text rest : Bytes}
    (parts : table.toList = before ++ (text ++ 0 :: rest)) (plain : 0 ∉ text) :
    stringFrom table before.length = text := by
  induction text generalizing before with
  | nil =>
    obtain ⟨inside, zero⟩ := Array.getElem?_eq_some_iff.mp (getElem?_placed parts)
    rw [stringFrom, dif_pos inside, if_pos zero]
  | cons c text ih =>
    obtain ⟨inside, first⟩ := Array.getElem?_eq_some_iff.mp (getElem?_placed parts)
    have nonzero : c ≠ 0 := fun zero => plain (zero ▸ List.mem_cons_self)
    have later : table.toList = (before ++ [c]) ++ (text ++ 0 :: rest) := by
      rw [parts, List.append_assoc]
      rfl
    have others := ih later fun zero => plain (List.mem_cons_of_mem _ zero)
    rw [List.length_append, List.length_singleton] at others
    rw [stringFrom, dif_pos inside, if_neg (first ▸ nonzero), first, others]

namespace Module
variable {m : Module}

theorem string?_placed {before text rest : Bytes} (small : m.strings.size < 0x80000000)
    (parts : m.strings.toList = before ++ (text ++ 0 :: rest)) (plain : 0 ∉ text) :
    m.string? (Int32.ofNat before.length) = some text := by
  have inside : before.length < m.strings.size := by
    rw [← Array.length_toList, parts, List.length_append, List.length_append, List.length_cons]
    omega
  have offset : (Int32.ofNat before.length).toInt = before.length :=
    Int32.toInt_ofNat_of_lt (Nat.lt_trans inside small)
  have found : ¬ (Int32.ofNat before.length < 0 ∨
      m.strings.size < (Int32.ofNat before.length).toInt.toNat) := by
    rw [Int32.lt_iff_toInt_lt, offset]
    exact not_or.mpr ⟨Int.not_lt.mpr (Int.natCast_nonneg _), Nat.not_lt.mpr (Nat.le_of_lt inside)⟩
  rw [string?, moduleString?, if_neg found, offset, Int.toNat_natCast, stringFrom_placed parts plain]

theorem text_of_string? {r : StringRef} {text : String} (h : m.string? r = some (Text.utf8 text)) :
    m.text r = text := by
  have found : moduleString? m.strings r = some (Text.utf8 text) := h
  rw [Module.text, moduleText, found]
  exact Text.ofUtf8_utf8 text

end Module

namespace Builder

/-- The texts that a call adds to the strings, in order. A builtin is given an empty file. -/
def Operation.texts : Operation → List String
  | addString text => [text]
  | addDef name _ _ | addGlobal name _ | addField name _ => [name]
  | addFunction name file _ _ _ _ | addVariadic name file _ _ _ _ => [name, file]
  | addBuiltin name _ => [name, ""]
  | _ => []

/-- A builder with some texts added. -/
def withTexts (b : Builder) (texts : List String) : Builder :=
  texts.foldl (fun b text => (b.addString text).2) b

variable {b : Builder} {m : Module}

/-- What adding a text does to the strings depends on nothing else. -/
theorem addString_strings (b b' : Builder) (strings : b.strings = b'.strings)
    (interned : b.interned = b'.interned) (text : String) :
    (b.addString text).1 = (b'.addString text).1 ∧
      (b.addString text).2.strings = (b'.addString text).2.strings ∧
      (b.addString text).2.interned = (b'.addString text).2.interned := by
  unfold addString
  rw [interned]
  cases b'.interned.lookup text with
  | some offset => exact ⟨rfl, strings, interned⟩
  | none =>
    simp only [strings, and_self]

theorem addGlobal_eq (b : Builder) (name : String) (value : Value) : ∃ globals,
    (b.addGlobal name value).2 =
      ({ b with globals } : Builder).addDef name value.type (b.addGlobal name value).1 := ⟨_, rfl⟩

theorem apply_strings (b : Builder) (op : Operation) :
    (b.apply op).strings = (b.withTexts op.texts).strings ∧
      (b.apply op).interned = (b.withTexts op.texts).interned := by
  cases op with
  | addGlobal name value =>
    obtain ⟨globals, added⟩ := b.addGlobal_eq name value
    rw [apply, added]
    have added := addString_strings { b with globals } b rfl rfl name
    exact added.2
  | _ => exact ⟨rfl, rfl⟩

theorem strings_addString (b : Builder) (text : String) :
    b.strings.toList <+: (b.addString text).2.strings.toList := by
  unfold addString
  split
  · exact List.prefix_refl _
  · rw [Array.toList_append]
    exact List.prefix_append _ _

theorem strings_withTexts (b : Builder) (texts : List String) :
    b.strings.toList <+: (b.withTexts texts).strings.toList := by
  induction texts generalizing b with
  | nil => exact List.prefix_refl _
  | cons text texts ih => exact (b.strings_addString text).trans (ih _)

theorem strings_foldl (b : Builder) (ops : List Operation) :
    b.strings.toList <+: (ops.foldl apply b).strings.toList := by
  induction ops generalizing b with
  | nil => exact List.prefix_refl _
  | cons op ops ih =>
    refine List.IsPrefix.trans ?_ (ih (b.apply op))
    rw [(b.apply_strings op).1]
    exact b.strings_withTexts op.texts

/-- In the table of a module, the references that a builder has given out read their texts. -/
def InternedIn (m : Module) (b : Builder) : Prop :=
  ∀ text r, b.interned.lookup text = some r → m.string? r = some (Text.utf8 text)

theorem InternedIn.addString (h : b.InternedIn m) {text : String} (plain : 0 ∉ Text.utf8 text)
    (small : m.strings.size < 0x80000000)
    (inside : (b.addString text).2.strings.toList <+: m.strings.toList) :
    m.string? (b.addString text).1 = some (Text.utf8 text) ∧ (b.addString text).2.InternedIn m := by
  unfold Builder.addString at inside ⊢
  cases known : b.interned.lookup text with
  | some offset => exact ⟨h text offset known, h⟩
  | none =>
    rw [known] at inside
    obtain ⟨rest, parts⟩ := inside
    have reads : m.string? (Int32.ofNat b.strings.size) = some (Text.utf8 text) := by
      have parts : m.strings.toList = b.strings.toList ++ (Text.utf8 text ++ 0 :: rest) := by
        rw [← parts]
        simp
      exact Module.string?_placed small parts plain
    refine ⟨reads, ?_⟩
    intro other r found
    rw [List.lookup_cons] at found
    split at found
    · rename_i same
      cases found
      rw [eq_of_beq same]
      exact reads
    · exact h other r found

theorem InternedIn.withTexts (h : b.InternedIn m) {texts : List String}
    (plain : ∀ text ∈ texts, 0 ∉ Text.utf8 text) (small : m.strings.size < 0x80000000)
    (inside : (b.withTexts texts).strings.toList <+: m.strings.toList) :
    (∀ text, texts.head? = some text → m.string? (b.addString text).1 = some (Text.utf8 text)) ∧
      (b.withTexts texts).InternedIn m := by
  induction texts generalizing b with
  | nil =>
    refine ⟨?_, h⟩
    intro text none
    cases none
  | cons text texts ih =>
    have added := h.addString (plain text List.mem_cons_self) small
      (((b.addString text).2.strings_withTexts texts).trans inside)
    refine ⟨?_, (ih added.2 (fun t ht => plain t (List.mem_cons_of_mem _ ht)) inside).2⟩
    intro first same
    cases same
    exact added.1

theorem InternedIn.empty (starts : Builder.empty.strings.toList <+: m.strings.toList)
    (small : m.strings.size < 0x80000000) : Builder.empty.InternedIn m := by
  intro text r found
  obtain ⟨rest, parts⟩ := starts
  have parts : m.strings.toList = [] ++ ([] ++ 0 :: rest) := parts.symm
  have front : (0 : Int32) = Int32.ofNat ([] : Bytes).length := rfl
  have reads : m.string? 0 = some [] := by
    rw [front]
    exact Module.string?_placed small parts List.not_mem_nil
  simp only [Builder.empty, List.lookup_cons, List.lookup_nil] at found
  split at found
  · rename_i same
    cases found
    rw [eq_of_beq same]
    exact reads
  · cases found

end Builder

structure NamedDef where
  name : String
  tag : UInt16
  offset : UInt16
deriving DecidableEq, Repr

namespace Module

def named (m : Module) (d : Def) : NamedDef := ⟨m.text d.name, d.tag, d.offset⟩

def namedDefs (m : Module) (defs : Array Def) : List NamedDef := defs.toList.map m.named

def namedFunctions (m : Module) (functions : Array FunctionRecord) : List (String × Nat) :=
  (functions.toList.map (m.text ·.name)).zipIdx

variable {m : Module} {name : String}

theorem map_find? (m : Module) (defs : Array Def) (name : String) :
    (defs.find? fun d => m.text d.name = name).map m.named =
      (m.namedDefs defs).find? (·.name = name) := by
  rw [namedDefs, List.find?_map, Array.find?_toList]
  rfl

end Module

/-- What calls add that has a text or a name, each kind in order: texts with their references,
functions with their numbers, and the defs of fields and of globals. -/
structure Additions where
  texts : List (String × StringRef) := []
  functions : List (String × Nat) := []
  fields : List NamedDef := []
  globals : List NamedDef := []
deriving DecidableEq

def Additions.append (a a' : Additions) : Additions :=
  ⟨a.texts ++ a'.texts, a.functions ++ a'.functions, a.fields ++ a'.fields, a.globals ++ a'.globals⟩

namespace Builder

/-- What a call adds, with the answer that the caller gets. -/
def additions (b : Builder) : Operation → Additions
  | .addString text => { texts := [(text, (b.addString text).1)] }
  | .addDef name type offset => { globals := [⟨name, type.tag, offset⟩] }
  | .addGlobal name value => { globals := [⟨name, value.type.tag, (b.addGlobal name value).1⟩] }
  | .addField name type => { fields := [⟨name, type.tag, (b.addField name type).1⟩] }
  | .addFunction name file entry start sizes locals =>
    { functions := [(name, (b.addFunction name file entry start sizes locals).1)] }
  | .addVariadic name file entry start sizes locals =>
    { functions := [(name, (b.addVariadic name file entry start sizes locals).1)] }
  | .addBuiltin name number => { functions := [(name, (b.addBuiltin name number).1)] }
  | _ => {}

def allAdditions (b : Builder) : List Operation → Additions
  | [] => {}
  | op :: ops => (b.additions op).append ((b.apply op).allAdditions ops)

/-- What has been added between two builders, as a module reads it. -/
structure Recorded (m : Module) (b b' : Builder) (a : Additions) : Prop where
  texts : ∀ added ∈ a.texts, m.string? added.2 = some (Text.utf8 added.1)
  functions : m.namedFunctions b'.functions = m.namedFunctions b.functions ++ a.functions
  fields : m.namedDefs b'.fieldDefs = m.namedDefs b.fieldDefs ++ a.fields
  globals : m.namedDefs b'.globalDefs = m.namedDefs b.globalDefs ++ a.globals
  names : b'.names = b.names ++ a.globals.map fun g => (g.name, g.offset)

@[simp] theorem addString_functions (b : Builder) (text : String) :
    (b.addString text).2.functions = b.functions := by
  obtain ⟨strings, interned, h⟩ := b.addString_cases text
  rw [h]

@[simp] theorem addString_globalDefs (b : Builder) (text : String) :
    (b.addString text).2.globalDefs = b.globalDefs := by
  obtain ⟨strings, interned, h⟩ := b.addString_cases text
  rw [h]

theorem namedDefs_push (m : Module) (defs : Array Def) (d : Def) :
    m.namedDefs (defs.push d) = m.namedDefs defs ++ [m.named d] := by
  rw [Module.namedDefs, Array.toList_push, List.map_append]
  rfl

theorem namedFunctions_setEntry (b : Builder) (m : Module) (function : Nat) (entry : Int32) :
    m.namedFunctions (b.setEntry function entry).functions = m.namedFunctions b.functions := by
  have names : (b.setEntry function entry).functions.toList.map (m.text ·.name) =
      b.functions.toList.map (m.text ·.name) := by
    apply List.ext_getElem?
    intro i
    rw [List.getElem?_map, List.getElem?_map, Array.getElem?_toList, Array.getElem?_toList, setEntry,
      Array.getElem?_modify]
    split
    · rw [Option.map_map]
      rfl
    · rfl
  rw [Module.namedFunctions, names]
  rfl

namespace Recorded
variable {b b' b'' : Builder} {m : Module} {a a' : Additions} {name : String}

theorem nil (functions : m.namedFunctions b'.functions = m.namedFunctions b.functions)
    (fields : b'.fieldDefs = b.fieldDefs) (globals : b'.globalDefs = b.globalDefs)
    (names : b'.names = b.names) :
    Recorded m b b' {} where
  texts := by
    intro added none
    cases none
  functions := by rw [functions, List.append_nil]
  fields := by rw [fields, List.append_nil]
  globals := by rw [globals, List.append_nil]
  names := by rw [names, List.map_nil, List.append_nil]

theorem trans (h : Recorded m b b' a) (h' : Recorded m b' b'' a') :
    Recorded m b b'' (a.append a') where
  texts := by
    intro added mem
    exact (List.mem_append.mp mem).elim (h.texts added) (h'.texts added)
  functions := by rw [h'.functions, h.functions, List.append_assoc]; rfl
  fields := by rw [h'.fields, h.fields, List.append_assoc]; rfl
  globals := by rw [h'.globals, h.globals, List.append_assoc]; rfl
  names := by rw [h'.names, h.names, List.append_assoc, ← List.map_append]; rfl

theorem addDef (b : Builder) (type : ValueType) (offset : UInt16)
    (reads : m.text (b.addString name).1 = name) :
    Recorded m b (b.addDef name type offset) { globals := [⟨name, type.tag, offset⟩] } where
  texts := by
    intro added none
    cases none
  functions := by simp only [Builder.addDef, addString_functions, List.append_nil]
  fields := by simp only [addDef_fieldDefs, List.append_nil]
  globals := by
    simp only [Builder.addDef, addString_globalDefs, namedDefs_push, Module.named, reads]
  names := b.addDef_names name type offset

theorem addField (b : Builder) (type : ValueType) (reads : m.text (b.addString name).1 = name) :
    Recorded m b (b.addField name type).2
      { fields := [⟨name, type.tag, (b.addField name type).1⟩] } where
  texts := by
    intro added none
    cases none
  functions := by simp only [Builder.addField, addString_functions, List.append_nil]
  fields := by
    simp only [Builder.addField, addString_fieldDefs, namedDefs_push, Module.named, reads]
  globals := by simp only [Builder.addField, addString_globalDefs, List.append_nil]
  names := by simp only [Builder.addField, addString_names, List.map_nil, List.append_nil]

theorem pushFunction (b : Builder) (file : String) (f : FunctionRecord)
    (reads : m.text (b.addString name).1 = name) :
    Recorded m b (b.pushFunction name file f).2
      { functions := [(name, (b.pushFunction name file f).1)] } where
  texts := by
    intro added none
    cases none
  functions := by
    simp only [Builder.pushFunction, addString_functions, Module.namedFunctions, Array.toList_push,
      List.map_append, List.map_singleton, List.zipIdx_append, List.zipIdx_singleton, reads,
      List.length_map, Array.length_toList, Nat.zero_add]
  fields := by simp only [pushFunction_fieldDefs, List.append_nil]
  globals := by simp only [Builder.pushFunction, addString_globalDefs, List.append_nil]
  names := by simp only [pushFunction_names, List.map_nil, List.append_nil]

/-- A call adds what it should, if the text that it begins with is read from what stands for it. -/
theorem apply (b : Builder) (op : Operation)
    (reads : ∀ text, op.texts.head? = some text →
      m.string? (b.addString text).1 = some (Text.utf8 text)) :
    Recorded m b (b.apply op) (b.additions op) := by
  have text (name : String) (first : op.texts.head? = some name) :
      m.text (b.addString name).1 = name := Module.text_of_string? (reads name first)
  cases op with
  | addString added =>
    have rest : Recorded m b (b.addString added).2 {} :=
      nil (congrArg m.namedFunctions (b.addString_functions added)) (b.addString_fieldDefs added)
        (b.addString_globalDefs added) (b.addString_names added)
    exact { rest with texts := List.forall_mem_singleton.mpr (reads added rfl) }
  | addDef name type offset => exact addDef b type offset (text name rfl)
  | addGlobal name value =>
    obtain ⟨globals, added⟩ := b.addGlobal_eq name value
    have strings := addString_strings { b with globals } b rfl rfl name
    have named := addDef { b with globals } value.type (b.addGlobal name value).1
      ((congrArg m.text strings.1).trans (text name rfl))
    rw [Builder.apply, added]
    exact ⟨named.texts, named.functions, named.fields, named.globals, named.names⟩
  | addField name type => exact addField b type (text name rfl)
  | addFunction name file => exact pushFunction b file _ (text name rfl)
  | addVariadic name file => exact pushFunction b file _ (text name rfl)
  | addBuiltin name => exact pushFunction b "" _ (text name rfl)
  | setEntry function entry => exact nil (b.namedFunctions_setEntry m function entry) rfl rfl rfl
  | setVersion => exact nil rfl rfl rfl rfl
  | reserveGlobals => exact nil rfl rfl rfl rfl
  | reserveWords => exact nil rfl rfl rfl rfl
  | pushStatements => exact nil rfl rfl rfl rfl

theorem foldl {ops : List Operation} (h : b.InternedIn m) (small : m.strings.size < 0x80000000)
    (plain : ∀ op ∈ ops, ∀ text ∈ op.texts, 0 ∉ Text.utf8 text)
    (inside : (ops.foldl Builder.apply b).strings.toList <+: m.strings.toList) :
    Recorded m b (ops.foldl Builder.apply b) (b.allAdditions ops) := by
  induction ops generalizing b with
  | nil => exact nil rfl rfl rfl rfl
  | cons op ops ih =>
    have here : (b.withTexts op.texts).strings.toList <+: m.strings.toList := by
      rw [← (b.apply_strings op).1]
      exact ((b.apply op).strings_foldl ops).trans inside
    obtain ⟨reads, interned⟩ := h.withTexts (plain op List.mem_cons_self) small here
    have later : (b.apply op).InternedIn m := by
      intro text r found
      rw [(b.apply_strings op).2] at found
      exact interned text r found
    have rest := ih later (fun op' mem => plain op' (List.mem_cons_of_mem op mem)) inside
    exact (apply b op reads).trans rest

end Recorded

/-- What a new builder has is what calls added, behind the null function and the null defs. -/
theorem built_recorded {m : Module} {ops : List Operation} (reproduced : (built ops).Reproduced m)
    (small : m.strings.size < 0x80000000)
    (plain : ∀ op ∈ ops, ∀ text ∈ op.texts, 0 ∉ Text.utf8 text) :
    m.text 0 = "" ∧ Recorded m .empty (built ops) (empty.allAdditions ops) := by
  have inside : (built ops).strings.toList <+: m.strings.toList :=
    ⟨[], by rw [List.append_nil, reproduced.strings]⟩
  have interned : Builder.empty.InternedIn m := .empty ((strings_foldl .empty ops).trans inside) small
  have blank : m.text 0 = "" := Module.text_of_string? (interned "" 0 rfl)
  exact ⟨blank, .foldl interned small plain inside⟩

end Builder

namespace Module

/-- What was added is read: texts at what adding them answered, and under each name the first that was
added with it, if any was. -/
structure Reads (m : Module) (a : Additions) : Prop where
  bytes : ∀ added ∈ a.texts, m.string? added.2 = some (Text.utf8 added.1)
  texts : ∀ added ∈ a.texts, m.text added.2 = added.1
  functions : ∀ name ≠ "", m.findFunction? name = a.functions.lookup name
  fields : ∀ name ≠ "", (m.findField? name).map m.named = a.fields.find? (·.name = name)
  globals : ∀ name ≠ "", (m.findGlobal? name).map m.named = a.globals.find? (·.name = name)

end Module

namespace Builder
variable {m : Module} {ops : List Operation} {name : String}

theorem reads_of_recorded (reproduced : (built ops).Reproduced m) (blank : m.text 0 = "")
    (recorded : Recorded m .empty (built ops) (empty.allAdditions ops)) :
    m.Reads (empty.allAdditions ops) where
  bytes := recorded.texts
  texts := by
    intro added mem
    exact Module.text_of_string? (recorded.texts added mem)
  functions := by
    intro name nonempty
    have first : m.namedFunctions empty.functions = [("", 0)] := congrArg (fun t => [(t, 0)]) blank
    rw [Module.findFunction?_eq nonempty, ← Module.namedFunctions, reproduced.functions,
      recorded.functions, first, List.singleton_append, List.lookup_cons, beq_false_of_ne nonempty]
  fields := by
    intro name nonempty
    have first : m.namedDefs empty.fieldDefs = [⟨"", 0, 0⟩] :=
      congrArg (fun t => [NamedDef.mk t 0 0]) blank
    rw [Module.findField?_of_ne nonempty, Module.map_find?, reproduced.fieldDefs, recorded.fields,
      first, List.singleton_append, List.find?_cons, decide_eq_false nonempty.symm]
  globals := by
    intro name nonempty
    have first : m.namedDefs empty.globalDefs = [⟨"", 0, 0⟩] :=
      congrArg (fun t => [NamedDef.mk t 0 0]) blank
    rw [Module.findGlobal?_of_ne nonempty, Module.map_find?, reproduced.globalDefs,
      recorded.globals, first, List.singleton_append, List.find?_cons,
      decide_eq_false nonempty.symm]

theorem globalOffset?_eq (recorded : Recorded m .empty (built ops) (empty.allAdditions ops)) :
    (built ops).globalOffset? name =
      ((empty.allAdditions ops).globals.find? (·.name = name)).map (·.offset) := by
  have names : (built ops).names =
      (empty.allAdditions ops).globals.map fun g => (g.name, g.offset) := recorded.names
  rw [globalOffset?, names, lookup_map NamedDef.name NamedDef.offset]

/-- Names and texts survive writing and loading, whatever calls have made a builder and however names are
repeated or shared: each text is read at what adding it answered, each name finds the first of a kind
that was added with it, and of globals the one that the builder itself tells. In any module at all the
first of those with a name, or at an address, is found, and by the empty name nothing is. -/
theorem names_read_back :
    (∀ (ops : List Operation) (capacity heapBytes : Nat) (layout : Layout),
      (∀ op ∈ ops, ∀ text ∈ op.texts, 0 ∉ Text.utf8 text) →
      (built ops).version = extendedVersion ∨ (built ops).version = basicVersion →
      (built ops).bytes.length < 0x80000000 →
      Layout.make (built ops).globals.size (built ops).entityFields.toNat capacity heapBytes =
        .ok layout →
      ∃ m, Image.load (built ops).bytes capacity heapBytes = .ok m ∧
        m.Reads (empty.allAdditions ops) ∧
        ∀ name ≠ "", (m.findGlobal? name).map (·.offset) = (built ops).globalOffset? name) ∧
    ∀ m : Module, m.FindsFirst := by
  refine ⟨?_, Module.findsFirst⟩
  intro ops capacity heapBytes layout plain version small room
  obtain ⟨m, loaded, reproduced, -⟩ := load_bytes version (fieldDefs_unsaved ops) small room
  have fits : m.strings.size < 0x80000000 := by
    have length := (built ops).length_bytes
    rw [reproduced.strings]
    omega
  obtain ⟨blank, recorded⟩ := built_recorded reproduced fits plain
  have reads := reads_of_recorded reproduced blank recorded
  refine ⟨m, loaded, reads, fun name nonempty => ?_⟩
  rw [globalOffset?_eq recorded, ← reads.globals name nonempty, Option.map_map]
  rfl

/-- Calls that repeat a name and share it between texts, fields, globals and functions, beside empty
names. -/
def sharedNames : List Operation :=
  [.addString "größe", .addField "größe" .float, .addField "größe" .vector, .addGlobal "" (.float 1),
    .addGlobal "größe" (.integer 2), .addDef "größe" .string 28, .addBuiltin "" 3,
    .addFunction "größe" "größe" 0 28 [] 0, .addBuiltin "größe" 4]

/-- The first of each kind is found, and a name that was not added is found by none. -/
theorem sharedNames_read_back : ∃ m, Image.load (built sharedNames).bytes 2 8 = .ok m ∧
    m.text 1 = "größe" ∧
    (∃ f, FirstAt m.functions (fun f => m.text f.name = "größe") 2 f) ∧
    m.findFunction? "print" = none ∧
    (m.findField? "größe").map m.named = some ⟨"größe", ValueType.float.tag, 0⟩ ∧
    (m.findGlobal? "größe").map m.named = some ⟨"größe", ValueType.integer.tag, 29⟩ ∧
    (m.findGlobal? "größe").map (·.offset) = (built sharedNames).globalOffset? "größe" := by
  have plain : ∀ op ∈ sharedNames, ∀ text ∈ op.texts, 0 ∉ Text.utf8 text := by decide +kernel
  have version : (built sharedNames).version = extendedVersion := by decide +kernel
  have small : (built sharedNames).bytes.length < 0x80000000 := by decide +kernel
  have sizes : (built sharedNames).globals.size = 30 ∧ (built sharedNames).entityFields = 4 := by
    decide +kernel
  have room : Layout.make (built sharedNames).globals.size
      (built sharedNames).entityFields.toNat 2 8 = .ok ⟨30, 30, 4, 2, 4, 38, 2, 40⟩ := by
    rw [sizes.1, sizes.2]
    rfl
  have added : empty.allAdditions sharedNames =
      { texts := [("größe", 1)], functions := [("", 1), ("größe", 2), ("größe", 3)],
        fields := [⟨"größe", ValueType.float.tag, 0⟩, ⟨"größe", ValueType.vector.tag, 1⟩],
        globals := [⟨"", ValueType.float.tag, 28⟩, ⟨"größe", ValueType.integer.tag, 29⟩,
          ⟨"größe", ValueType.string.tag, 28⟩] } := by
    decide +kernel
  have named : "größe" ≠ "" := by decide
  obtain ⟨m, loaded, reads, offsets⟩ :=
    names_read_back.1 sharedNames 2 8 _ plain (.inl version) small room
  rw [added] at reads
  have second : m.findFunction? "größe" = some 2 :=
    (reads.functions _ named).trans (by decide +kernel)
  have first := ((names_read_back.2 m).functions "größe" named 2).mp second
  have text : m.text 1 = "größe" := reads.texts ("größe", 1) List.mem_cons_self
  have offset := offsets "größe" named
  refine ⟨m, loaded, text, first, ?_, ?_, ?_, offset⟩
  · exact (reads.functions "print" (by decide)).trans (by decide +kernel)
  · exact (reads.fields _ named).trans (by decide +kernel)
  · exact (reads.globals _ named).trans (by decide +kernel)

end Builder
end GameBytecode
