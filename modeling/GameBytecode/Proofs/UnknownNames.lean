import GameBytecode.Proofs.FirstError

/-!
Sources with names that stand for nothing. If nothing else is wrong with a source, that is if it can be
assembled with numbers in place of names, the assembler reports the first such name that it meets, and
succeeds when there is none.
-/
namespace GameBytecode.Assembly

/-- A name where nothing is known by it, with the function that it is written in. -/
structure UnknownName where
  function : String
  name : String
deriving DecidableEq, Repr

def UnknownName.error (u : UnknownName) : Error := .unknownName u.function u.name

/-- An outcome that is the error of the first of some unknown names, or a success where there are
none. -/
def Reports {α : Type} (x : Except Error α) : List UnknownName → Prop
  | [] => ∃ a, x = .ok a
  | u :: _ => x = .error u.error

theorem reports_iff {α : Type} {x : Except Error α} {us : List UnknownName} :
    Reports x us ↔ StopsAt x (us.map UnknownName.error) := by
  cases us <;> rfl

/-- The operand with a number for a name. -/
def Operand.nameless : Operand → Operand
  | .name _ => .number 0
  | o => o

def nameless : List Operand → List Operand
  | [] => []
  | mnemonic :: rest => mnemonic :: rest.map (·.nameless)

def FunctionSource.nameless (f : FunctionSource) : FunctionSource :=
  { f with statements := f.statements.map Assembly.nameless }

def Source.nameless (s : Source) : Source := { s with functions := s.functions.map (·.nameless) }

/-- The names among operands that have no address. -/
def unknownNames (address? : String → Option UInt16) (function : String) (operands : List Operand) :
    List UnknownName :=
  operands.flatMap fun
    | .number _ => []
    | .name name => if (address? name).isNone then [⟨function, name⟩] else []

/-- The names in the statements of a function that have no address, in the order of the statements. -/
def FunctionSource.unknownNames (f : FunctionSource) (address? : String → Option UInt16) :
    List UnknownName :=
  if f.builtin.isSome then []
  else f.statements.flatMap fun parts => Assembly.unknownNames address? f.name parts.tail

theorem Source.nameless_eq (s : Source) : s.nameless = s.mended Operand.nameless := by
  have statement : Assembly.nameless = Assembly.mended Operand.nameless := by
    funext parts
    cases parts <;> rfl
  have function : FunctionSource.nameless = FunctionSource.mended Operand.nameless := by
    funext f
    rw [FunctionSource.nameless, FunctionSource.mended, statement]
  rw [Source.nameless, Source.mended, function]

/-- An operand that is unknown is blamed for that. -/
def unknown : Blame := fun address? function o =>
  (unknownNames address? function [o]).map UnknownName.error

theorem nameless_mends : Mends Operand.nameless unknown := by
  intro b scope function o word assembled
  cases o with
  | number n => exact ⟨word, assembled⟩
  | name name =>
    simp only [operand, unknown, unknownNames, List.flatMap_singleton]
    cases resolve? b scope name with
    | some address => exact .pure address
    | none => rfl

theorem flatMap_unknown (address? : String → Option UInt16) (function : String)
    (operands : List Operand) : operands.flatMap (unknown address? function) =
      (unknownNames address? function operands).map UnknownName.error := by
  rw [unknownNames, List.map_flatMap]
  refine congrArg (operands.flatMap ·) (funext fun o => ?_)
  rw [unknown, unknownNames, List.flatMap_singleton]

theorem FunctionSource.blamed_unknown (f : FunctionSource) (address? : String → Option UInt16) :
    f.blamed unknown address? = (f.unknownNames address?).map UnknownName.error := by
  unfold FunctionSource.blamed FunctionSource.unknownNames
  split
  · rfl
  · simp only [flatMap_unknown, List.map_flatMap]

/-- A source that can be assembled without its names is assembled with them, or else the first name that
stands for nothing is reported. -/
theorem assemble_reports {s : Source} {b : Builder} (h : assemble s.nameless = .ok b) :
    ∃ b₀ declared, declarations s = .ok (b₀, declared) ∧
      Reports (assemble s) ((s.functions.zip declared).flatMap fun (f, d) =>
        f.unknownNames (resolve? b₀ d.scope)) := by
  rw [Source.nameless_eq] at h
  obtain ⟨b₀, declared, declarations, stops⟩ := assemble_stops nameless_mends h
  refine ⟨b₀, declared, declarations, reports_iff.mpr ?_⟩
  simpa only [List.map_flatMap, FunctionSource.blamed_unknown] using stops

end GameBytecode.Assembly
