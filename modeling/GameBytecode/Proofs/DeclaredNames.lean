import GameBytecode.Proofs.AssembledOperands

/-!
Where the names of a source are. The assembler reserves words for one name after another; the address
of a name is told here by the source alone, as the sum of the words before it, together with the
function, if any, that the name is a parameter or local of.
-/
namespace GameBytecode

theorem lookup_map {α β : Type} (key : α → String) (value : α → β) (xs : List α) (name : String) :
    (xs.map fun x => (key x, value x)).lookup name = (xs.find? (key · = name)).map value := by
  induction xs with
  | nil => rfl
  | cons x xs ih =>
    rw [List.map_cons, List.lookup_cons, List.find?_cons, ih]
    by_cases same : key x = name
    · rw [beq_iff_eq.mpr same.symm, decide_eq_true same]
      rfl
    · rw [beq_false_of_ne (Ne.symm same), decide_eq_false same]

namespace Builder
variable (b : Builder)

@[simp] theorem addString_globals (text : String) : (b.addString text).2.globals = b.globals := by
  obtain ⟨strings, interned, h⟩ := b.addString_cases text
  rw [h]

@[simp] theorem addDef_globals (name : String) (type : ValueType) (offset : UInt16) :
    (b.addDef name type offset).globals = b.globals :=
  b.addString_globals name

@[simp] theorem reserveWords_size (count : Nat) :
    (b.reserveWords count).2.globals.size = b.globals.size + count := by
  simp only [reserveWords, Array.size_append, Array.size_replicate]

@[simp] theorem addString_names (text : String) : (b.addString text).2.names = b.names := by
  obtain ⟨strings, interned, h⟩ := b.addString_cases text
  rw [h]

@[simp] theorem addDef_names (name : String) (type : ValueType) (offset : UInt16) :
    (b.addDef name type offset).names = b.names ++ [(name, offset)] := by
  simp only [addDef, addString_names]

@[simp] theorem pushFunction_globals (name file : String) (f : FunctionRecord) :
    (b.pushFunction name file f).2.globals = b.globals := by
  simp only [pushFunction, addString_globals]

@[simp] theorem pushFunction_names (name file : String) (f : FunctionRecord) :
    (b.pushFunction name file f).2.names = b.names := by
  simp only [pushFunction, addString_names]

end Builder

namespace Assembly

/-- Words that are reserved for a name, of the module or of a function. -/
structure Reservation where
  name : String
  /-- The place in the source of the function that the name is a parameter or local of. -/
  owner : Option Nat
  words : Nat

/-- A name with its address. -/
structure Placement where
  name : String
  owner : Option Nat
  address : UInt16

def Placement.entry (p : Placement) : String × UInt16 := (p.name, p.address)

def wordCount (rs : List Reservation) : Nat := (rs.map (·.words)).sum

/-- Names placed one behind another, the first at a given address. -/
def placeAll (address : Nat) : List Reservation → List Placement
  | [] => []
  | r :: rs => ⟨r.name, r.owner, UInt16.ofNat address⟩ :: placeAll (address + r.words) rs

@[simp] theorem wordCount_append (rs rs' : List Reservation) :
    wordCount (rs ++ rs') = wordCount rs + wordCount rs' := by
  rw [wordCount, List.map_append, List.sum_append]
  rfl

@[simp] theorem placeAll_append (address : Nat) (rs rs' : List Reservation) :
    placeAll address (rs ++ rs') = placeAll address rs ++ placeAll (address + wordCount rs) rs' := by
  induction rs generalizing address with
  | nil => rfl
  | cons r rs ih =>
    rw [List.cons_append, placeAll, ih, Nat.add_assoc]
    rfl

theorem owner_of_mem_placeAll {address : Nat} {rs : List Reservation} {p : Placement}
    (h : p ∈ placeAll address rs) : ∃ r ∈ rs, p.owner = r.owner := by
  induction rs generalizing address with
  | nil => cases h
  | cons r rs ih =>
    rcases List.mem_cons.mp h with rfl | h
    · exact ⟨r, List.mem_cons_self, rfl⟩
    · obtain ⟨r', mem, owner⟩ := ih h
      exact ⟨r', List.mem_cons_of_mem _ mem, owner⟩

/-- The names of a function among others. -/
def ownedBy (i : Nat) (ps : List Placement) : List Placement := ps.filter (·.owner = some i)

@[simp] theorem ownedBy_append (i : Nat) (ps ps' : List Placement) :
    ownedBy i (ps ++ ps') = ownedBy i ps ++ ownedBy i ps' := List.filter_append ..

theorem ownedBy_self {i address : Nat} {rs : List Reservation} (own : ∀ r ∈ rs, r.owner = some i) :
    ownedBy i (placeAll address rs) = placeAll address rs := by
  refine List.filter_eq_self.mpr fun p hp => ?_
  obtain ⟨r, hr, owner⟩ := owner_of_mem_placeAll hp
  exact decide_eq_true (owner.trans (own r hr))

theorem ownedBy_nil {i address : Nat} {rs : List Reservation} (other : ∀ r ∈ rs, r.owner ≠ some i) :
    ownedBy i (placeAll address rs) = [] := by
  refine List.filter_eq_nil_iff.mpr fun p hp owned => ?_
  obtain ⟨r, hr, owner⟩ := owner_of_mem_placeAll hp
  exact other r hr (owner.symm.trans (of_decide_eq_true owned))

def Reservation.ofModule (name : String) (words : Nat) : Reservation := ⟨name, none, words⟩

def Symbol.reservation (s : Symbol) (i : Nat) : Reservation := ⟨s.name, some i, s.type.width⟩

def GlobalSource.words (g : GlobalSource) : Nat :=
  match g.text, g.value with
  | none, some value => max value.words.length 1
  | _, _ => 1

namespace FunctionSource

/-- What a variadic function has between its parameters and its locals: the number and the address of
further arguments, with the slots of these behind the address. -/
def further (f : FunctionSource) (i : Nat) : List Reservation :=
  if f.variadic then
    [⟨"argc", some i, 1⟩,
      ⟨"argv", some i, 1 + (maxParameters - f.params.length) * Address.argumentWords⟩]
  else []

/-- The parameters and locals of a function that no builtin stands for. -/
def own (f : FunctionSource) (i : Nat) : List Reservation :=
  if f.builtin.isSome then []
  else f.params.map (·.reservation i) ++ f.further i ++ f.locals.map (·.reservation i)

def reservations (f : FunctionSource) (i : Nat) : List Reservation :=
  f.own i ++ [.ofModule f.name 1]

theorem own_owner (f : FunctionSource) (i : Nat) : ∀ r ∈ f.own i, r.owner = some i := by
  have symbols (l : List Symbol) : ∀ r ∈ l.map (·.reservation i), r.owner = some i := by
    intro r hr
    obtain ⟨s, -, rfl⟩ := List.mem_map.mp hr
    rfl
  have further : ∀ r ∈ f.further i, r.owner = some i := by
    unfold FunctionSource.further
    cases f.variadic with
    | false => exact nofun
    | true => exact List.forall_mem_cons.mpr ⟨rfl, List.forall_mem_singleton.mpr rfl⟩
  unfold own
  cases f.builtin with
  | some n => exact nofun
  | none =>
    exact List.forall_mem_append.mpr
      ⟨List.forall_mem_append.mpr ⟨symbols _, further⟩, symbols _⟩

theorem ownedBy_reservations (f : FunctionSource) (i address : Nat) :
    ownedBy i (placeAll address (f.reservations i)) = placeAll address (f.own i) := by
  rw [reservations, placeAll_append, ownedBy_append, ownedBy_self (f.own_owner i)]
  exact List.append_nil _

theorem ownedBy_reservations_ne (f : FunctionSource) {i j : Nat} (ne : i ≠ j) (address : Nat) :
    ownedBy j (placeAll address (f.reservations i)) = [] := by
  refine ownedBy_nil (List.forall_mem_append.mpr ⟨fun r hr owner => ?_, ?_⟩)
  · exact ne (Option.some.inj ((f.own_owner i r hr).symm.trans owner))
  · exact List.forall_mem_singleton.mpr nofun

end FunctionSource

/-- What is reserved for functions that are numbered from n on. -/
def functionReservations (n : Nat) (fs : List FunctionSource) : List Reservation :=
  (fs.zipIdx n).flatMap fun (f, i) => f.reservations i

/-- What is reserved for a source: fields come first, then globals, then functions. -/
def Source.reservations (s : Source) : List Reservation :=
  s.fields.map (fun field => .ofModule field.name 1) ++
    s.globals.map (fun g => .ofModule g.name g.words) ++ functionReservations 0 s.functions

/-- The names of a source with their addresses, in the order in which they are declared. -/
def Source.placements (s : Source) : List Placement := placeAll Address.reserved s.reservations

theorem ownedBy_functions_below {i n : Nat} (below : i < n) (address : Nat)
    (fs : List FunctionSource) : ownedBy i (placeAll address (functionReservations n fs)) = [] := by
  induction fs generalizing n address with
  | nil => rfl
  | cons f fs ih =>
    rw [functionReservations, List.zipIdx_cons, List.flatMap_cons, placeAll_append, ownedBy_append,
      f.ownedBy_reservations_ne (Nat.ne_of_gt below)]
    exact ih (Nat.lt_succ_of_lt below) _

end Assembly

open Assembly

/-- A builder with the words and the names of another one, and with what is reserved behind them. -/
structure Builder.Declares (b b' : Builder) (rs : List Reservation) : Prop where
  size : b'.globals.size = b.globals.size + wordCount rs
  names : b'.names = b.names ++ (placeAll b.globals.size rs).map Placement.entry

namespace Builder.Declares
variable {b b' b'' : Builder} {rs rs' : List Reservation}

theorem nil (globals : b'.globals.size = b.globals.size) (names : b'.names = b.names) :
    b.Declares b' [] := ⟨globals, names.trans (List.append_nil _).symm⟩

theorem trans (h : b.Declares b' rs) (h' : b'.Declares b'' rs') : b.Declares b'' (rs ++ rs') := by
  constructor
  · rw [h'.size, h.size, wordCount_append, Nat.add_assoc]
  · rw [h'.names, h.names, h.size, placeAll_append, List.map_append, List.append_assoc]

theorem reserveWords {r : Reservation} (h : b.Declares b' (rs ++ [r])) (count : Nat) :
    b.Declares (b'.reserveWords count).2 (rs ++ [{ r with words := r.words + count }]) := by
  constructor
  · rw [reserveWords_size, h.size, wordCount_append, wordCount_append, Nat.add_assoc, Nat.add_assoc]
    rfl
  · refine h.names.trans ?_
    rw [placeAll_append, placeAll_append]
    rfl

theorem addString (b : Builder) (text : String) : b.Declares (b.addString text).2 [] :=
  .nil (congrArg Array.size (b.addString_globals text)) (b.addString_names text)

theorem pushFunction (b : Builder) (name file : String) (record : FunctionRecord) :
    b.Declares (b.pushFunction name file record).2 [] :=
  .nil (congrArg Array.size (b.pushFunction_globals ..)) (b.pushFunction_names ..)

theorem addGlobal (b : Builder) (name : String) (value : Value) :
    b.Declares (b.addGlobal name value).2 [.ofModule name (max value.words.length 1)] := by
  constructor
  · simp only [Builder.addGlobal, addDef_globals, Memory.size_setWords, reserveWords_size]
    rfl
  · simp only [Builder.addGlobal, addDef_names]
    rfl

end Builder.Declares

namespace Assembly
variable {b b' : Builder} {f : FunctionSource} {d : Declared}

/-- Names and addresses as a scope has them, the latest first. -/
def scopeOf (ps : List Placement) : Scope := (ps.map Placement.entry).reverse

theorem scopeOf_append (ps ps' : List Placement) : scopeOf (ps ++ ps') = scopeOf ps' ++ scopeOf ps := by
  rw [scopeOf, List.map_append, List.reverse_append]
  rfl

theorem addField_declares (b : Builder) (field : Symbol) :
    b.Declares (addField b field) [.ofModule field.name 1] := by
  have added : b.Declares (b.addField field.name field.type).2 [] := by
    refine .nil ?_ (b.addString_names field.name)
    exact congrArg Array.size (b.addString_globals field.name)
  exact added.trans (.addGlobal _ _ _)

theorem addFields_declares (b : Builder) (fields : List Symbol) :
    b.Declares (fields.foldl addField b) (fields.map fun field => .ofModule field.name 1) := by
  induction fields generalizing b with
  | nil => exact .nil rfl rfl
  | cons field fields ih => exact (addField_declares b field).trans (ih (addField b field))

theorem addGlobal_declares {g : GlobalSource} (h : addGlobal b g = .ok b') :
    b.Declares b' [.ofModule g.name g.words] := by
  unfold GlobalSource.words
  simp only [addGlobal] at h
  split at h
  · rename_i text given
    cases h
    rw [given]
    exact (Builder.Declares.addString b text).trans (.addGlobal _ _ _)
  · rename_i value absent given
    cases h
    rw [absent, given]
    exact .addGlobal _ _ _
  · cases h

theorem addGlobals_declares {globals : List GlobalSource}
    (h : globals.foldlM addGlobal b = .ok b') :
    b.Declares b' (globals.map fun g => .ofModule g.name g.words) := by
  induction globals generalizing b with
  | nil =>
    cases h
    exact .nil rfl rfl
  | cons g globals ih =>
    rw [List.foldlM_cons] at h
    obtain ⟨b₁, added, later⟩ := ok_of_bind h
    exact (addGlobal_declares added).trans (ih later)

/-- Names that are declared, and are put in front of a scope. -/
structure DeclaresIn (b : Builder) (scope : Scope) (after : Builder × Scope)
    (rs : List Reservation) : Prop where
  declares : b.Declares after.1 rs
  scope : after.2 = scopeOf (placeAll b.globals.size rs) ++ scope

theorem DeclaresIn.nil (b : Builder) (scope : Scope) : DeclaresIn b scope (b, scope) [] :=
  ⟨.nil rfl rfl, rfl⟩

theorem DeclaresIn.trans {scope : Scope} {after after' : Builder × Scope} {rs rs' : List Reservation}
    (h : DeclaresIn b scope after rs) (h' : DeclaresIn after.1 after.2 after' rs') :
    DeclaresIn b scope after' (rs ++ rs') := by
  refine ⟨h.declares.trans h'.declares, ?_⟩
  rw [h'.scope, h.scope, h.declares.size, placeAll_append, scopeOf_append, List.append_assoc]

theorem declare_declares (b : Builder) (scope : Scope) (s : Symbol) (i : Nat) :
    DeclaresIn b scope (declare b scope s) [s.reservation i] := by
  refine ⟨⟨?_, ?_⟩, rfl⟩
  · simp only [declare, Builder.addDef_globals, Builder.reserveWords_size]
    rfl
  · simp only [declare, Builder.addDef_names]
    rfl

theorem declareAll_declares (b : Builder) (scope : Scope) (symbols : List Symbol) (i : Nat) :
    DeclaresIn b scope (declareAll b scope symbols) (symbols.map (·.reservation i)) := by
  induction symbols generalizing b scope with
  | nil => exact .nil b scope
  | cons s symbols ih => exact (declare_declares b scope s i).trans (ih _ _)

theorem declareNames_declares (bytecode : f.builtin = none) (b : Builder) (i : Nat) :
    DeclaresIn b [] (declareNames b f) (f.own i) := by
  have params := declareAll_declares b [] f.params i
  simp only [declareNames, FunctionSource.own, FunctionSource.further, bytecode]
  cases f.variadic with
  | false => exact (params.trans (.nil _ _)).trans (declareAll_declares _ _ f.locals i)
  | true =>
    have further : DeclaresIn (declareAll b [] f.params).1 (declareAll b [] f.params).2 _
        ([⟨"argc", some i, 1⟩] ++ [⟨"argv", some i, 1⟩]) :=
      declareAll_declares _ _ variadicSymbols i
    -- The slots of further arguments have no names: they are counted with the last name before them.
    have slots : DeclaresIn (declareAll b [] f.params).1 (declareAll b [] f.params).2
        (_, (declareAll _ _ variadicSymbols).2)
        [⟨"argc", some i, 1⟩,
          ⟨"argv", some i, 1 + (maxParameters - f.params.length) * Address.argumentWords⟩] :=
      ⟨further.declares.reserveWords _, further.scope⟩
    exact (params.trans slots).trans (declareAll_declares _ _ f.locals i)

theorem declareFunction_declares (h : declareFunction b f = .ok (b', d)) (i : Nat) :
    b.Declares b' (f.reservations i) ∧ d.scope = scopeOf (placeAll b.globals.size (f.own i)) := by
  cases builtin : f.builtin with
  | some n =>
    simp only [declareFunction, builtin] at h
    cases h
    simp only [FunctionSource.reservations, FunctionSource.own, builtin]
    exact ⟨(Builder.Declares.pushFunction _ _ _ _).trans (.addGlobal _ _ _), rfl⟩
  | none =>
    have named := declareNames_declares builtin b i
    have recorded : (declareNames b f).1.Declares
        (declareRecord (declareNames b f).1 f b.globals.size).2 [] := by
      unfold declareRecord
      cases f.variadic with
      | false => exact .pushFunction _ _ _ _
      | true => exact .pushFunction _ _ _ _
    obtain ⟨rfl, rfl⟩ := declareFunction_bytecode builtin h
    exact ⟨named.declares.trans (recorded.trans (.addGlobal _ _ _)),
      named.scope.trans (List.append_nil _)⟩

/-- The scope of each function has the names that are owned by it, whatever is declared with them. -/
theorem declareFunctions_declares {fs : List FunctionSource} {declared : List Declared} {n : Nat}
    (h : declareFunctions b fs = .ok (b', declared)) :
    b.Declares b' (functionReservations n fs) ∧ declared.length = fs.length ∧
      ∀ i d, declared[i]? = some d →
        d.scope = scopeOf (ownedBy (n + i) (placeAll b.globals.size (functionReservations n fs))) := by
  induction fs generalizing b declared n with
  | nil =>
    cases h
    exact ⟨.nil rfl rfl, rfl, nofun⟩
  | cons f fs ih =>
    rw [declareFunctions] at h
    obtain ⟨⟨b₁, d⟩, hd, h⟩ := ok_of_bind h
    obtain ⟨⟨b₂, ds⟩, hds, h⟩ := ok_of_bind h
    cases h
    obtain ⟨first, scope⟩ := declareFunction_declares hd n
    obtain ⟨rest, length, scopes⟩ := ih hds (n := n + 1)
    refine ⟨first.trans rest, congrArg (· + 1) length, fun i d' found => ?_⟩
    rw [functionReservations, List.zipIdx_cons, List.flatMap_cons, placeAll_append, ownedBy_append,
      ← first.size]
    cases i with
    | zero =>
      cases found
      rw [Nat.add_zero, f.ownedBy_reservations, scope]
      exact congrArg scopeOf ((List.append_nil _).symm.trans
        (congrArg _ (ownedBy_functions_below (Nat.lt_succ_self n) _ fs).symm))
    | succ i =>
      rw [f.ownedBy_reservations_ne (by omega), scopes i d' found, Nat.add_assoc, Nat.add_comm 1]
      rfl

theorem start_declared (version : Option UInt32) :
    (start version).globals.size = Address.reserved ∧ (start version).names = reservedNames := by
  have run {name : Builder → String × UInt16 → Builder}
      (named : ∀ b p, name b p = b.addDef p.1 .vector p.2) (b : Builder) (l : Scope) :
      (l.foldl name b).globals = b.globals ∧ (l.foldl name b).names = b.names ++ l := by
    induction l generalizing b with
    | nil => exact ⟨rfl, (List.append_nil _).symm⟩
    | cons p l ih =>
      obtain ⟨globals, names⟩ := ih (name b p)
      rw [named, b.addDef_globals] at globals
      rw [named, b.addDef_names, List.append_assoc] at names
      rw [List.foldl_cons, named]
      exact ⟨globals, names⟩
  cases version with
  | none => exact (run (fun _ _ => rfl) .empty reservedNames).imp_left (congrArg Array.size)
  | some v =>
    exact (run (fun _ _ => rfl) (Builder.empty.setVersion v) reservedNames).imp_left
      (congrArg Array.size)

/-- Once all is declared, the names are those that every function has and then those of the source, and
the scope of each function has those that it owns. -/
theorem declarations_names {s : Source} {declared : List Declared}
    (h : declarations s = .ok (b, declared)) :
    b.names = reservedNames ++ s.placements.map Placement.entry ∧
      declared.length = s.functions.length ∧
      ∀ i d, declared[i]? = some d → d.scope = scopeOf (ownedBy i s.placements) := by
  obtain ⟨b₁, globals, h⟩ := ok_of_bind h
  obtain ⟨⟨b₂, ds⟩, functions, h⟩ := ok_of_bind h
  cases h
  obtain ⟨size, names⟩ := start_declared s.version
  have module := (addFields_declares (start s.version) s.fields).trans (addGlobals_declares globals)
  obtain ⟨added, length, scopes⟩ := declareFunctions_declares functions (n := 0)
  have all := module.trans added
  have before : ∀ r ∈ s.fields.map (fun field => Reservation.ofModule field.name 1) ++
      s.globals.map (fun g => .ofModule g.name g.words), r.owner = none := by
    intro r hr
    rcases List.mem_append.mp hr with hr | hr
    · obtain ⟨field, -, rfl⟩ := List.mem_map.mp hr
      rfl
    · obtain ⟨g, -, rfl⟩ := List.mem_map.mp hr
      rfl
  refine ⟨?_, length, fun i d found => ?_⟩
  · refine all.names.trans ?_
    rw [names, size]
    rfl
  · rw [scopes i d found, Nat.zero_add, module.size, size, Source.placements, Source.reservations,
      placeAll_append, ownedBy_append, ownedBy_nil fun r hr owner => nomatch (before r hr).symm.trans owner]
    rfl

end Assembly
end GameBytecode
