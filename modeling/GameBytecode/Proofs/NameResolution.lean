import GameBytecode.Proofs.FunctionRegion
import GameBytecode.Proofs.UnknownNames

/-!
What the names in statements stand for. A name is looked for among the parameters and locals of its
function, then among the names that every function has, and then among all that the source declares,
where the first one of the name is taken, even if it is a parameter or local of another function.
-/
namespace GameBytecode.Assembly

namespace Source
variable (s : Source)

/-- The parameter or local of a name, for the function at a place of the source. -/
def own? (i : Nat) (name : String) : Option Placement :=
  (ownedBy i s.placements).reverse.find? (·.name = name)

/-- The first that is declared of a name. -/
def first? (name : String) : Option Placement := s.placements.find? (·.name = name)

/-- The first field, global or function of a name. -/
def ofModule? (name : String) : Option Placement :=
  s.placements.find? fun p => p.owner = none ∧ p.name = name

/-- The address that a name stands for in a function. -/
def address? (i : Nat) (name : String) : Option UInt16 :=
  ((s.own? i name).map (·.address)).or
    ((reservedNames.lookup name).or ((s.first? name).map (·.address)))

/-- The address that a name would stand for if functions did not see the names of others. -/
def scopedAddress? (i : Nat) (name : String) : Option UInt16 :=
  ((s.own? i name).map (·.address)).or
    ((reservedNames.lookup name).or ((s.ofModule? name).map (·.address)))

variable {s}

theorem own?_ne_none {i : Nat} {name : String} {p : Placement} (first : s.first? name = some p)
    (owner : p.owner = some i) : s.own? i name ≠ none := by
  intro none
  have mem : p ∈ ownedBy i s.placements :=
    List.mem_filter.mpr ⟨List.mem_of_find?_eq_some first, decide_eq_true owner⟩
  have named : decide (p.name = name) = true :=
    List.find?_some (p := fun q : Placement => decide (q.name = name)) first
  exact List.find?_eq_none.mp none p (List.mem_reverse.mpr mem) named

theorem ofModule?_eq_first? {name : String} (unowned : ∀ p, s.first? name = some p → p.owner = none) :
    s.ofModule? name = s.first? name := by
  cases first : s.first? name with
  | none =>
    have absent := List.find?_eq_none.mp first
    exact List.find?_eq_none.mpr fun p hp named =>
      absent p hp (decide_eq_true (of_decide_eq_true named).2)
  | some p =>
    obtain ⟨named, before, after, split, earlier⟩ := List.find?_eq_some_iff_append.mp first
    refine List.find?_eq_some_iff_append.mpr
      ⟨decide_eq_true ⟨unowned p first, of_decide_eq_true named⟩, before, after, split, ?_⟩
    intro q hq
    have other := earlier q hq
    rw [Bool.not_eq_true', decide_eq_false_iff_not] at other ⊢
    exact fun both => other both.2

/-- A name escapes its scope where the first of the name belongs to another function. -/
theorem address?_cases (i : Nat) (name : String) : s.address? i name = s.scopedAddress? i name ∨
    s.own? i name = none ∧ reservedNames.lookup name = none ∧
      ∃ p k, s.first? name = some p ∧ p.owner = some k ∧ k ≠ i := by
  unfold address? scopedAddress?
  cases own : s.own? i name with
  | some p => exact .inl rfl
  | none =>
    cases reservedNames.lookup name with
    | some address => exact .inl rfl
    | none =>
      by_cases unowned : ∀ p, s.first? name = some p → p.owner = none
      · rw [ofModule?_eq_first? unowned]
        exact .inl rfl
      · obtain ⟨p, owned⟩ := Classical.not_forall.mp unowned
        obtain ⟨first, owned⟩ := Classical.not_imp.mp owned
        obtain ⟨k, owner⟩ := Option.ne_none_iff_exists'.mp owned
        refine .inr ⟨rfl, rfl, p, k, first, owner, ?_⟩
        rintro rfl
        exact own?_ne_none first owner own

end Source

theorem lookup_entries (ps : List Placement) (name : String) :
    (ps.map Placement.entry).lookup name = (ps.find? (·.name = name)).map (·.address) :=
  lookup_map Placement.name Placement.address ps name

/-- What a declared function takes a name for is told by the source alone. -/
theorem resolve?_declared {s : Source} {b : Builder} {d : Declared} {declared : List Declared}
    (h : declarations s = .ok (b, declared)) {i : Nat} (found : declared[i]? = some d) :
    resolve? b d.scope = s.address? i := by
  obtain ⟨names, -, scopes⟩ := declarations_names h
  funext name
  have own : d.scope.lookup name = (s.own? i name).map (·.address) := by
    rw [scopes i d found, scopeOf, ← List.map_reverse, lookup_entries]
    rfl
  have again (o o' : Option UInt16) : o.or (o.or o') = o.or o' := by
    rw [← Option.or_assoc, Option.or_self]
  rw [resolve?, own, Builder.globalOffset?, names, List.lookup_append, lookup_entries, again]
  rfl

section statements
variable {b : Builder} {scope : Scope} {function : String} {f : FunctionSource} {index : Nat}
  {parts : List Operand} {st : Statement}

theorem statement_few (h : statement b scope function index parts = .ok st) : parts.length ≤ 4 := by
  obtain ⟨mnemonic, rest, -, -, rfl, -⟩ := statement_ok h
  rw [statement] at h
  by_cases surplus : 3 < rest.length
  · rw [if_pos surplus] at h
    cases h
  · exact Nat.succ_le_succ (Nat.not_lt.mp surplus)

theorem statement_operand (h : statement b scope function index parts = .ok st) {k : Nat}
    {o : Operand} (written : parts[k + 1]? = some o) :
    ∃ slot : Opcode.Slot, slot.index = k ∧ operand b scope function o = .ok (st.slot slot) := by
  have few := statement_few h
  obtain ⟨mnemonic, rest, op, slots, rfl, -, assembled, rfl⟩ := statement_ok h
  have written : rest[k]? = some o := written
  have word : operand b scope function o = .ok (slots.getD k 0) := by
    rcases getD_of_mapM_ok assembled k 0 with ⟨absent, -⟩ | ⟨o', at_place, word⟩
    · cases absent.symm.trans written
    · cases at_place.symm.trans written
      exact word
  have inside : k < 3 := by
    have inside := (List.getElem?_eq_some_iff.mp written).1
    rw [List.length_cons] at few
    omega
  obtain rfl | rfl | rfl : k = 0 ∨ k = 1 ∨ k = 2 := by omega
  · exact ⟨.a, rfl, word⟩
  · exact ⟨.b, rfl, word⟩
  · exact ⟨.c, rfl, word⟩

/-- Every name behind the mnemonic of a statement is resolved, and its address is in its slot. -/
theorem statement_resolves (h : statement b scope function index parts = .ok st) {k : Nat}
    {name : String} (written : parts[k + 1]? = some (.name name)) :
    ∃ slot : Opcode.Slot, slot.index = k ∧ resolve? b scope name = some (st.slot slot) := by
  obtain ⟨slot, at_place, word⟩ := statement_operand h written
  refine ⟨slot, at_place, ?_⟩
  simp only [operand] at word
  cases resolved : resolve? b scope name with
  | none =>
    rw [resolved] at word
    cases word
  | some address =>
    rw [resolved] at word
    cases word
    rfl

theorem body_places {statements : List Statement} (h : body b scope f = .ok statements)
    (written : f.statements[index]? = some parts) :
    ∃ st, statements[index]? = some st ∧ statement b scope f.name index parts = .ok st := by
  obtain ⟨placed, assembled, h⟩ := ok_of_bind h
  have numbered : f.statements.zipIdx[index]? = some (parts, index) := by
    rw [List.getElem?_zipIdx, written, Option.map_some, Nat.zero_add]
  obtain ⟨st, at_index, here⟩ := getElem?_of_mapM_ok assembled numbered
  refine ⟨st, ?_, here⟩
  dsimp only at h
  split at h
  · cases h
    exact at_index
  · cases h
    rw [List.getElem?_append_left (List.getElem?_eq_some_iff.mp at_index).1]
    exact at_index

end statements

/-- The statements of an assembled function are behind its entry, and the slot of each name has what the
source tells for it. -/
theorem assembled_resolves {s : Source} {b : Builder} (assembled : assemble s = .ok b) {i : Nat}
    {f : FunctionSource} (hf : s.functions[i]? = some f) (bytecode : f.builtin = none) :
    ∃ first record, b.functions[i + 1]? = some record ∧ record.entry = Int32.ofNat first ∧
      ∀ (j : Nat) (parts : List Operand), f.statements[j]? = some parts →
        ∃ st, b.statements[first + j]? = some st ∧
          ∀ (k : Nat) (name : String), parts[k + 1]? = some (.name name) →
            ∃ slot : Opcode.Slot, slot.index = k ∧ s.address? i name = some (st.slot slot) := by
  obtain ⟨b₀, declared, d, record, first, statements, declarations, -, hd, found, -, entry, -,
    assembled, placed⟩ := assembled_entry assembled hf bytecode
  refine ⟨first, record, found, entry, fun j parts written => ?_⟩
  obtain ⟨st, at_place, here⟩ := body_places assembled written
  refine ⟨st, (placed j (List.getElem?_eq_some_iff.mp at_place).1).trans at_place, ?_⟩
  intro k name named
  rw [← resolve?_declared declarations hd]
  exact statement_resolves here named

/-- The names that stand for nothing where they are written, in the order of the functions. -/
def Source.unknownNames (s : Source) : List UnknownName :=
  s.functions.zipIdx.flatMap fun (f, i) => f.unknownNames (s.address? i)

theorem unknownNames_declared {s : Source} {b : Builder} {declared : List Declared}
    (h : declarations s = .ok (b, declared)) :
    ((s.functions.zip declared).flatMap fun (f, d) => f.unknownNames (resolve? b d.scope)) =
      s.unknownNames := by
  obtain ⟨-, length, -⟩ := declarations_names h
  have size : (s.functions.zip declared).length = s.functions.zipIdx.length := by
    rw [List.length_zip, length, Nat.min_self, List.length_zipIdx]
  refine congrArg List.flatten (List.ext_getElem ?_ fun i hi hi' => ?_)
  · rw [List.length_map, List.length_map, size]
  · simp only [List.getElem_map, List.getElem_zip, List.getElem_zipIdx, Nat.zero_add]
    rw [resolve?_declared h (List.getElem?_eq_getElem _)]

/-- What names stand for. In an assembled function every name has the address that the source tells for
it; when nothing is wrong but names that stand for nothing, the first of these is reported. A name stands
for what its scope has, unless the first that is declared of it belongs to another function. -/
theorem names_resolve (s : Source) :
    (∀ b, assemble s = .ok b →
      ∀ (i : Nat) (f : FunctionSource), s.functions[i]? = some f → f.builtin = none →
        ∃ first record, b.functions[i + 1]? = some record ∧ record.entry = Int32.ofNat first ∧
          ∀ (j : Nat) (parts : List Operand), f.statements[j]? = some parts →
            ∃ st, b.statements[first + j]? = some st ∧
              ∀ (k : Nat) (name : String), parts[k + 1]? = some (.name name) →
                ∃ slot : Opcode.Slot, slot.index = k ∧ s.address? i name = some (st.slot slot)) ∧
    (∀ b, assemble s.nameless = .ok b → Reports (assemble s) s.unknownNames) ∧
    ∀ (i : Nat) (name : String), s.address? i name = s.scopedAddress? i name ∨
      s.own? i name = none ∧ reservedNames.lookup name = none ∧
        ∃ p k, s.first? name = some p ∧ p.owner = some k ∧ k ≠ i := by
  refine ⟨fun b assembled i f hf bytecode => assembled_resolves assembled hf bytecode, ?_, ?_⟩
  · intro b assembled
    obtain ⟨b₀, declared, declarations, reports⟩ := assemble_reports assembled
    rw [unknownNames_declared declarations] at reports
    exact reports
  · exact fun i name => Source.address?_cases i name

def returns (name : String) (locals : List Symbol) : FunctionSource :=
  ⟨name, "", none, [], locals, false, [[.name "done"]]⟩

def calls (name callee : String) : FunctionSource :=
  ⟨name, "", none, [], [], false, [[.name "call0", .name callee], [.name "done"]]⟩

/-- A source with a function of the name of a local of the function before it. -/
def leaking : Source :=
  ⟨none, [], [], [returns "first" [⟨"target", .float⟩], returns "target" [], calls "main" "target"]⟩

/-- A source with a call of nothing. -/
def unlinked : Source := ⟨none, [], [], [returns "first" [], calls "main" "gone"]⟩

theorem leaking_assembles : (assemble leaking).toOption.any fun b =>
    b.functions[3]?.any (fun f => f.entry = 3) ∧ b.statements[3]?.any fun st => st.a = 28 := by
  simp only [assemble, addBody, body, statement, ofMnemonic?_eq_find?]
  decide +kernel

theorem unlinked_nameless : (assemble unlinked.nameless).toOption.isSome := by
  simp only [assemble, addBody, body, statement, ofMnemonic?_eq_find?]
  decide +kernel

/-- The call of a function is one of the local of its name, and the call of nothing is reported. -/
theorem leaking_resolves : ∃ b, assemble leaking = .ok b ∧
    (∃ first record st, b.functions[3]? = some record ∧ record.entry = Int32.ofNat first ∧
      b.statements[first]? = some st ∧ leaking.address? 2 "target" = some st.a) ∧
    (∃ b', assemble unlinked.nameless = .ok b') ∧
    assemble unlinked = .error (.unknownName "main" "gone") := by
  obtain ⟨b, assembled, -⟩ := (Option.any_eq_true _ _).mp leaking_assembles
  have assembled := ok_of_toOption assembled
  have nameless := Session.eq_ok_get unlinked_nameless
  obtain ⟨first, record, found, entry, places⟩ :=
    (names_resolve leaking).1 b assembled 2 (calls "main" "target") rfl rfl
  obtain ⟨st, at_place, resolved⟩ := places 0 _ rfl
  obtain ⟨slot, index, address⟩ := resolved 0 "target" rfl
  have unknown : unlinked.unknownNames = [⟨"main", "gone"⟩] := by decide +kernel
  have reports := (names_resolve unlinked).2.1 _ nameless
  rw [unknown] at reports
  refine ⟨b, assembled, ⟨first, record, st, found, entry, at_place, ?_⟩, ⟨_, nameless⟩, reports⟩
  cases slot with
  | a => exact address
  | b => cases index
  | c => cases index

/-- The function of the name is behind the local that is called in its place. -/
theorem leaking_escapes : ∃ b record st, assemble leaking = .ok b ∧
    b.functions[3]? = some record ∧ record.entry = 3 ∧ b.statements[3]? = some st ∧ st.a = 28 ∧
    leaking.own? 2 "target" = none ∧ reservedNames.lookup "target" = none ∧
    (leaking.ofModule? "target").map (·.address) = some 30 := by
  obtain ⟨b, assembled, facts⟩ := (Option.any_eq_true _ _).mp leaking_assembles
  obtain ⟨entered, called⟩ := of_decide_eq_true facts
  obtain ⟨record, found, entry⟩ := (Option.any_eq_true _ _).mp entered
  obtain ⟨st, at_place, address⟩ := (Option.any_eq_true _ _).mp called
  exact ⟨b, record, st, ok_of_toOption assembled, found, of_decide_eq_true entry, at_place,
    of_decide_eq_true address, by decide +kernel, by decide +kernel, by decide +kernel⟩

end GameBytecode.Assembly
