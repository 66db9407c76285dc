import GameBytecode.Image.Builder

/-!
Builders as the calls on them leave them. What holds of a new builder and is kept by each call holds
of every builder; such a fact is stated once for a call and carried through all of them.
-/
namespace GameBytecode

namespace Builder

/-- A call that changes a builder. -/
inductive Operation where
  | setVersion (version : UInt32)
  | addString (text : String)
  | reserveGlobals (count : Nat)
  | reserveWords (count : Nat)
  | addDef (name : String) (type : ValueType) (offset : UInt16)
  | addGlobal (name : String) (value : Value)
  | pushStatements (statements : List Statement)
  | addFunction (name file : String) (entry : Int32) (start : UInt32) (sizes : List UInt8)
    (locals : UInt32)
  | addVariadic (name file : String) (entry : Int32) (start : UInt32) (sizes : List UInt8)
    (locals : UInt32)
  | addBuiltin (name : String) (number : UInt32)
  | setEntry (function : Nat) (entry : Int32)
  | addField (name : String) (type : ValueType)

/-- The builder after a call. -/
def apply (b : Builder) : Operation → Builder
  | .setVersion version => b.setVersion version
  | .addString text => (b.addString text).2
  | .reserveGlobals count => b.reserveGlobals count
  | .reserveWords count => (b.reserveWords count).2
  | .addDef name type offset => b.addDef name type offset
  | .addGlobal name value => (b.addGlobal name value).2
  | .pushStatements statements => (b.pushStatements statements).2
  | .addFunction name file entry start sizes locals =>
    (b.addFunction name file entry start sizes locals).2
  | .addVariadic name file entry start sizes locals =>
    (b.addVariadic name file entry start sizes locals).2
  | .addBuiltin name number => (b.addBuiltin name number).2
  | .setEntry function entry => b.setEntry function entry
  | .addField name type => (b.addField name type).2

/-- A new builder after calls in order. -/
def built (ops : List Operation) : Builder := ops.foldl apply .empty

theorem built_invariant {P : Builder → Prop} (start : P .empty)
    (step : ∀ b op, P b → P (b.apply op)) (ops : List Operation) : P (built ops) := by
  have run (b : Builder) (h : P b) : P (ops.foldl apply b) := by
    induction ops generalizing b with
    | nil => exact h
    | cons op ops ih => exact ih (b.apply op) (step b op h)
  exact run .empty start

variable (b : Builder)

theorem addString_cases (text : String) :
    ∃ strings interned, (b.addString text).2 = { b with strings, interned } := by
  unfold addString
  split
  · exact ⟨b.strings, b.interned, rfl⟩
  · exact ⟨_, _, rfl⟩

@[simp] theorem addString_fieldDefs (text : String) :
    (b.addString text).2.fieldDefs = b.fieldDefs := by
  obtain ⟨strings, interned, h⟩ := b.addString_cases text
  rw [h]

@[simp] theorem addDef_fieldDefs (name : String) (type : ValueType) (offset : UInt16) :
    (b.addDef name type offset).fieldDefs = b.fieldDefs :=
  b.addString_fieldDefs name

@[simp] theorem pushFunction_fieldDefs (name file : String) (f : FunctionRecord) :
    (b.pushFunction name file f).2.fieldDefs = b.fieldDefs := by
  simp only [pushFunction, addString_fieldDefs]

/-- A call keeps the field defs, or it adds one with the tag of a type. -/
theorem apply_fieldDefs (op : Operation) :
    (b.apply op).fieldDefs = b.fieldDefs ∨
      ∃ type offset ref,
        (b.apply op).fieldDefs = b.fieldDefs.push ⟨ValueType.tag type, offset, ref⟩ := by
  cases op with
  | addString text => exact .inl (b.addString_fieldDefs text)
  | addDef name type offset => exact .inl (b.addDef_fieldDefs name type offset)
  | addGlobal name value =>
    left
    simp only [apply, addGlobal, addDef_fieldDefs]
    rfl
  | addFunction name file entry start sizes locals =>
    left
    simp only [apply, addFunction, pushFunction_fieldDefs]
  | addVariadic name file entry start sizes locals =>
    left
    simp only [apply, addVariadic, pushFunction_fieldDefs]
  | addBuiltin name number =>
    left
    simp only [apply, addBuiltin, pushFunction_fieldDefs]
  | addField name type =>
    right
    refine ⟨type, b.entityFields.toUInt16, (b.addString name).1, ?_⟩
    simp only [apply, addField, addString_fieldDefs]
  | setVersion version => exact .inl rfl
  | reserveGlobals count => exact .inl rfl
  | reserveWords count => exact .inl rfl
  | pushStatements statements => exact .inl rfl
  | setEntry function entry => exact .inl rfl

theorem tag_unsaved (type : ValueType) : type.tag &&& ValueType.saveFlag = 0 := by
  cases type <;> rfl

theorem fieldDefs_unsaved (ops : List Operation) :
    ∀ d ∈ (built ops).fieldDefs, d.isSaved = false := by
  apply built_invariant (P := fun b => ∀ d ∈ b.fieldDefs, d.isSaved = false)
  · intro d hd
    rw [show d = .null by simpa [empty] using hd]
    rfl
  · intro b op h d hd
    rcases b.apply_fieldDefs op with kept | ⟨type, offset, ref, added⟩
    · rw [kept] at hd
      exact h d hd
    · rw [added, Array.mem_push] at hd
      rcases hd with old | rfl
      · exact h d old
      · simp only [Def.isSaved, tag_unsaved]
        rfl

end Builder
end GameBytecode
