import GameBytecode.Proofs.AssembledOperands

/-!
The first error of an assembly. Operands are assembled in the order in which they are written. If a
source can be assembled with its operands mended, then as it is, the assembler stops at the first
operand that is wrong, and succeeds when there is none.
-/
namespace GameBytecode.Assembly

/-- An outcome that is the first of some errors, or a success where there are none. -/
def StopsAt {α : Type} (x : Except Error α) : List Error → Prop
  | [] => ∃ a, x = .ok a
  | e :: _ => x = .error e

namespace StopsAt
variable {α β : Type} {x : Except Error α} {k : α → Except Error β} {es es' : List Error}

theorem pure (a : α) : StopsAt (.ok a) [] := ⟨a, rfl⟩

/-- What comes later is only reached if there is no error before it. -/
theorem bind (hx : StopsAt x es) (hk : ∀ a, x = .ok a → StopsAt (k a) es') :
    StopsAt (x >>= k) (es ++ es') := by
  cases es with
  | nil =>
    obtain ⟨a, rfl⟩ := hx
    exact hk a rfl
  | cons e es =>
    rw [show x = _ from hx]
    rfl

theorem bind_ok (hx : StopsAt x es) (hk : ∀ a, ∃ c, k a = .ok c) : StopsAt (x >>= k) es := by
  have both : StopsAt (x >>= k) (es ++ []) := hx.bind fun a _ => hk a
  rw [List.append_nil] at both
  exact both

theorem mapM {f : α → Except Error β} {u : α → List Error} {xs : List α}
    (each : ∀ a ∈ xs, StopsAt (f a) (u a)) : StopsAt (xs.mapM f) (xs.flatMap u) := by
  induction xs with
  | nil => exact .pure []
  | cons a xs ih =>
    obtain ⟨first, rest⟩ := List.forall_mem_cons.mp each
    rw [List.mapM_cons, List.flatMap_cons]
    exact first.bind fun b _ => (ih rest).bind_ok fun bs => ⟨b :: bs, rfl⟩

/-- A fold stops where its steps do, as far as these depend on what all of them keep. -/
theorem foldlM {f : β → α → Except Error β} {u : α → List Error} {P : β → Prop} {xs : List α} {b : β}
    (start : P b) (kept : ∀ b a b', P b → f b a = .ok b' → P b')
    (each : ∀ a ∈ xs, ∀ b, P b → StopsAt (f b a) (u a)) :
    StopsAt (xs.foldlM f b) (xs.flatMap u) := by
  induction xs generalizing b with
  | nil => exact .pure b
  | cons a xs ih =>
    obtain ⟨first, rest⟩ := List.forall_mem_cons.mp each
    rw [List.foldlM_cons, List.flatMap_cons]
    exact (first b start).bind fun b' hb' => ih (kept b a b' start hb') rest

end StopsAt

/-- What can be wrong with an operand of a function, by the addresses of the names. -/
abbrev Blame := (String → Option UInt16) → String → Operand → List Error

/-- The statement with the operands behind its mnemonic mended. -/
def mended (mend : Operand → Operand) : List Operand → List Operand
  | [] => []
  | mnemonic :: rest => mnemonic :: rest.map mend

def FunctionSource.mended (mend : Operand → Operand) (f : FunctionSource) : FunctionSource :=
  { f with statements := f.statements.map (Assembly.mended mend) }

def Source.mended (mend : Operand → Operand) (s : Source) : Source :=
  { s with functions := s.functions.map (·.mended mend) }

/-- What is wrong with the operands in the statements of a function, in the order of the statements. -/
def FunctionSource.blamed (f : FunctionSource) (blame : Blame) (address? : String → Option UInt16) :
    List Error :=
  if f.builtin.isSome then []
  else f.statements.flatMap fun parts => parts.tail.flatMap (blame address? f.name)

/-- If an operand is assembled once it is mended, what was wrong with it is blamed. -/
def Mends (mend : Operand → Operand) (blame : Blame) : Prop :=
  ∀ b scope function o word, operand b scope function (mend o) = .ok word →
    StopsAt (operand b scope function o) (blame (resolve? b scope) function o)

section statements
variable {mend : Operand → Operand} {blame : Blame} (mends : Mends mend blame)
  {b b' : Builder} {scope : Scope} {function : String} {f : FunctionSource}
include mends

theorem statement_stops {index : Nat} {parts : List Operand} {st : Statement}
    (h : statement b scope function index (mended mend parts) = .ok st) :
    StopsAt (statement b scope function index parts)
      (parts.tail.flatMap (blame (resolve? b scope) function)) := by
  match parts with
  | [] => cases h
  | .number n :: rest => cases h
  | .name mnemonic :: rest =>
    simp only [mended, statement, List.length_map] at h ⊢
    by_cases surplus : 3 < rest.length
    · rw [if_pos surplus] at h
      cases h
    · rw [if_neg surplus] at h ⊢
      cases known : Opcode.ofMnemonic? mnemonic with
      | none =>
        rw [known] at h
        cases h
      | some op =>
        rw [known] at h
        obtain ⟨slots, assembled, -⟩ := ok_of_bind h
        have operands : StopsAt (rest.mapM (operand b scope function))
            (rest.flatMap (blame (resolve? b scope) function)) := by
          refine .mapM fun o ho => ?_
          obtain ⟨word, ok⟩ := ok_of_mem_mapM assembled (List.mem_map_of_mem ho)
          exact mends b scope function o word ok
        exact operands.bind_ok fun slots => ⟨_, rfl⟩

theorem body_stops {statements : List Statement} (bytecode : f.builtin = none)
    (h : body b scope (f.mended mend) = .ok statements) :
    StopsAt (body b scope f) (f.blamed blame (resolve? b scope)) := by
  obtain ⟨written, assembled, -⟩ := ok_of_bind h
  have each : StopsAt (f.statements.zipIdx.mapM fun p => statement b scope f.name p.2 p.1)
      (f.statements.zipIdx.flatMap fun p =>
        p.1.tail.flatMap (blame (resolve? b scope) f.name)) := by
    refine .mapM fun p hp => ?_
    have mem : (mended mend p.1, p.2) ∈ (f.mended mend).statements.zipIdx := by
      rw [FunctionSource.mended, List.zipIdx_map]
      exact List.mem_map_of_mem hp
    obtain ⟨st, ok⟩ := ok_of_mem_mapM assembled mem
    exact statement_stops mends ok
  have blamed : f.blamed blame (resolve? b scope) = f.statements.zipIdx.flatMap fun p =>
      p.1.tail.flatMap (blame (resolve? b scope) f.name) := by
    have unnumbered := List.flatMap_map Prod.fst (fun parts : List Operand =>
      parts.tail.flatMap (blame (resolve? b scope) f.name)) f.statements.zipIdx
    rw [List.zipIdx_map_fst] at unnumbered
    rw [FunctionSource.blamed, bytecode]
    exact unnumbered
  rw [blamed]
  refine each.bind_ok fun written => ?_
  dsimp only
  split
  · exact ⟨_, rfl⟩
  · exact ⟨_, rfl⟩

theorem addBodies_stop {pairs : List (FunctionSource × Declared)}
    (bodies : ∀ p ∈ pairs, p.1.builtin = none →
      ∃ statements, body b p.2.scope (p.1.mended mend) = .ok statements) :
    StopsAt (pairs.foldlM (fun b (f, d) => addBody b f d) b)
      (pairs.flatMap fun (f, d) => f.blamed blame (resolve? b d.scope)) := by
  refine .foldlM (P := fun b' => b'.names = b.names) rfl ?_ ?_
  · exact fun _ _ _ names added => (addBody_adds added).2.2.1.trans names
  · rintro ⟨f, d⟩ mem b' names
    cases builtin : f.builtin with
    | some n =>
      simp only [addBody, FunctionSource.blamed, builtin]
      exact .pure b'
    | none =>
      obtain ⟨statements, assembled⟩ := bodies (f, d) mem builtin
      have stops := body_stops mends builtin assembled
      rw [← body_congr names] at stops
      simp only [addBody, builtin]
      exact stops.bind_ok fun statements => ⟨_, rfl⟩

end statements

theorem addBodies_bodies {b b' : Builder} {pairs : List (FunctionSource × Declared)}
    (h : pairs.foldlM (fun b (f, d) => addBody b f d) b = .ok b') :
    ∀ p ∈ pairs, p.1.builtin = none → ∃ statements, body b p.2.scope p.1 = .ok statements := by
  induction pairs generalizing b with
  | nil => exact nofun
  | cons pair pairs ih =>
    rw [List.foldlM_cons] at h
    obtain ⟨b₁, added, later⟩ := ok_of_bind h
    have rest := ih later
    rw [body_congr (addBody_adds added).2.2.1] at rest
    refine List.forall_mem_cons.mpr ⟨fun bytecode => ?_, rest⟩
    rcases addBody_ok added with ⟨n, builtin, -⟩ | ⟨-, statements, assembled, -⟩
    · cases bytecode.symm.trans builtin
    · exact ⟨statements, assembled⟩

section declared
variable (mend : Operand → Operand)

theorem declareFunctions_mended (b : Builder) (fs : List FunctionSource) :
    declareFunctions b (fs.map (·.mended mend)) = declareFunctions b fs := by
  induction fs generalizing b with
  | nil => rfl
  | cons f fs ih =>
    have same : declareFunction b (f.mended mend) = declareFunction b f := rfl
    simp only [List.map_cons, declareFunctions, same, ih]

theorem declarations_mended (s : Source) : declarations (s.mended mend) = declarations s := by
  simp only [declarations, Source.mended, declareFunctions_mended]

end declared

/-- A source that can be assembled once its operands are mended is assembled as it is, or else the
first operand that is wrong is blamed. -/
theorem assemble_stops {mend : Operand → Operand} {blame : Blame} (mends : Mends mend blame)
    {s : Source} {b : Builder} (h : assemble (s.mended mend) = .ok b) :
    ∃ b₀ declared, declarations s = .ok (b₀, declared) ∧
      StopsAt (assemble s) ((s.functions.zip declared).flatMap fun (f, d) =>
        f.blamed blame (resolve? b₀ d.scope)) := by
  rw [assemble_eq, declarations_mended] at h
  obtain ⟨⟨b₀, declared⟩, declarations, added⟩ := ok_of_bind h
  refine ⟨b₀, declared, declarations, ?_⟩
  rw [assemble_eq, declarations]
  refine addBodies_stop mends fun p hp bytecode => ?_
  refine addBodies_bodies added (p.1.mended mend, p.2) ?_ bytecode
  rw [Source.mended, List.zip_map_left]
  exact List.mem_map_of_mem hp

end GameBytecode.Assembly
