import GameBytecode.Proofs.NameResolution
import GameBytecode.Proofs.OperandReadings

/-!
What the numbers in statements come to. The assembler takes every number that some slot can hold,
whatever the slot that it is written in, and writes it as the operand of the same low bits. The slot is
then taken for the number if it can hold it, and for another one if it cannot.
-/
namespace GameBytecode.Assembly

def Operand.tamed : Operand → Operand
  | .number _ => .number 0
  | o => o

def Source.tamed (s : Source) : Source := s.mended Operand.tamed

/-- A number that no slot can hold is blamed for that. -/
def unwritable : Blame := fun _ function o => match o with
  | .number n => if -0x8000 ≤ n ∧ n ≤ 0xffff then [] else [.operandRange function n]
  | .name _ => []

/-- The errors of the numbers that no slot can hold, in the order in which these are written. -/
def Source.outOfRange (s : Source) : List Error :=
  s.functions.flatMap fun f => f.blamed unwritable fun _ => none

theorem tamed_mends : Mends Operand.tamed unwritable := by
  intro b scope function o word assembled
  cases o with
  | name name => exact ⟨word, assembled⟩
  | number n =>
    simp only [operand, unwritable]
    split
    · exact .pure _
    · rfl

theorem outOfRange_declared {s : Source} {b : Builder} {declared : List Declared}
    (h : declarations s = .ok (b, declared)) :
    ((s.functions.zip declared).flatMap fun (f, d) => f.blamed unwritable (resolve? b d.scope)) =
      s.outOfRange := by
  obtain ⟨-, length, -⟩ := declarations_names h
  -- Numbers are blamed whatever the names stand for.
  have blind (p : FunctionSource × Declared) :
      p.1.blamed unwritable (resolve? b p.2.scope) = p.1.blamed unwritable fun _ => none := rfl
  have functions : (s.functions.zip declared).map Prod.fst = s.functions :=
    List.map_fst_zip (Nat.le_of_eq length.symm)
  have paired := List.flatMap_map Prod.fst
    (fun f : FunctionSource => f.blamed unwritable fun _ => none) (s.functions.zip declared)
  rw [functions] at paired
  simp only [blind]
  exact paired.symm

theorem operand_number {b : Builder} {scope : Scope} {function : String} {n : Int} {word : UInt16}
    (h : operand b scope function (.number n) = .ok word) :
    -0x8000 ≤ n ∧ n ≤ 0xffff ∧ word = operandOf n := by
  simp only [operand] at h
  split at h
  · rename_i inside
    cases h
    exact ⟨inside.1, inside.2, rfl⟩
  · cases h

/-- What a statement does with the numbers that are written in it. -/
theorem statement_numbers {b : Builder} {scope : Scope} {function : String} {index : Nat}
    {parts : List Operand} {st : Statement}
    (h : statement b scope function index parts = .ok st) :
    ∃ mnemonic rest op, parts = .name mnemonic :: rest ∧ Opcode.ofMnemonic? mnemonic = some op ∧
      (∀ settings m place, step settings m place st =
        (Step.written settings m place (op.readings st) op).runAt (op.readings st)) ∧
      ∀ (k : Nat) (n : Int), rest[k]? = some (.number n) → -0x8000 ≤ n ∧ n ≤ 0xffff ∧
        ∃ slot : Opcode.Slot, slot.index = k ∧
          op.readings st slot % 0x10000 = n % 0x10000 ∧
          (op.readings st slot = n ↔ op.Represents slot n) := by
  have operands (k : Nat) (n : Int) (number : parts[k + 1]? = some (.number n)) :=
    statement_operand h number
  obtain ⟨mnemonic, rest, op, slots, rfl, known, -, opcode⟩ := statement_ok h
  have opcode : Opcode.ofCode? st.op = some op := by
    rw [opcode]
    exact ofCode?_of_mnemonic known
  refine ⟨mnemonic, rest, op, rfl, known, fun _ _ _ => Step.step_readings opcode, ?_⟩
  intro k n number
  obtain ⟨slot, at_place, word⟩ := operands k n number
  obtain ⟨low, high, word⟩ := operand_number word
  refine ⟨low, high, slot, at_place, ?_⟩
  rw [Opcode.readings, word]
  exact op.reading_operandOf slot n

/-- In an assembled source, a statement does what its opcode does with numbers for operands. What is
taken for a number of the source is that number exactly if its slot can hold it, and otherwise another
number of the same low bits. If nothing else is wrong with a source, the first number that no slot can
hold is reported, and the source is assembled when there is none. -/
theorem numbers_mean (s : Source) :
    (∀ b, assemble s = .ok b →
      ∀ (i : Nat) (f : FunctionSource), s.functions[i]? = some f → f.builtin = none →
        ∃ first record, b.functions[i + 1]? = some record ∧ record.entry = Int32.ofNat first ∧
          ∀ (j : Nat) (parts : List Operand), f.statements[j]? = some parts →
            ∃ st mnemonic rest op, b.statements[first + j]? = some st ∧
              parts = .name mnemonic :: rest ∧ Opcode.ofMnemonic? mnemonic = some op ∧
              (∀ settings m place, step settings m place st =
                (Step.written settings m place (op.readings st) op).runAt (op.readings st)) ∧
              ∀ (k : Nat) (n : Int), rest[k]? = some (.number n) → -0x8000 ≤ n ∧ n ≤ 0xffff ∧
                ∃ slot : Opcode.Slot, slot.index = k ∧
                  op.readings st slot % 0x10000 = n % 0x10000 ∧
                  (op.readings st slot = n ↔ op.Represents slot n)) ∧
    ∀ b, assemble s.tamed = .ok b → StopsAt (assemble s) s.outOfRange := by
  refine ⟨fun b assembled i f hf bytecode => ?_, fun b assembled => ?_⟩
  · obtain ⟨b₀, declared, d, record, first, statements, -, -, -, found, -, entry, -, assembled,
      placed⟩ := assembled_entry assembled hf bytecode
    refine ⟨first, record, found, entry, fun j parts written => ?_⟩
    obtain ⟨st, at_place, here⟩ := body_places assembled written
    have fetched := (placed j (List.getElem?_eq_some_iff.mp at_place).1).trans at_place
    obtain ⟨mnemonic, rest, op, split, known, does, numbers⟩ := statement_numbers here
    exact ⟨st, mnemonic, rest, op, fetched, split, known, does, numbers⟩
  · obtain ⟨b₀, declared, declarations, stops⟩ := assemble_stops tamed_mends assembled
    rw [outOfRange_declared declarations] at stops
    exact stops

/-- A source of one function that goes to a number of statements further on. -/
def going (distance : Int) : Source :=
  ⟨none, [], [], [⟨"main", "", none, [], [], false,
    [[.name "goto", .number distance], [.name "done"]]⟩]⟩

theorem going_near : (assemble (going 1)).toOption.isSome := by
  simp only [assemble, addBody, body, statement, ofMnemonic?_eq_find?]
  decide +kernel

theorem going_tamed : (assemble (going 70000).tamed).toOption.isSome := by
  simp only [assemble, addBody, body, statement, ofMnemonic?_eq_find?]
  decide +kernel

theorem going_far : (assemble (going 40000)).toOption.any fun b =>
    b.statements[1]?.any fun st => Opcode.ofCode? st.op = some .goto ∧
      Opcode.goto.readings st .a = -25536 := by
  simp only [assemble, addBody, body, statement, ofMnemonic?_eq_find?]
  decide +kernel

/-- A distance of one statement is one, and one of 70000 is reported. -/
theorem going_means : (∃ b, ∃ (first : Nat), ∃ st, assemble (going 1) = .ok b ∧
      b.statements[first]? = some st ∧ Opcode.goto.readings st .a = 1) ∧
    (∃ b, assemble (going 70000).tamed = .ok b) ∧
    assemble (going 70000) = .error (.operandRange "main" 70000) := by
  have tamed := Session.eq_ok_get going_tamed
  refine ⟨?_, ⟨_, tamed⟩, ?_⟩
  · have assembled := Session.eq_ok_get going_near
    obtain ⟨first, record, -, -, places⟩ := (numbers_mean (going 1)).1 _ assembled 0 _ rfl rfl
    obtain ⟨st, mnemonic, rest, op, fetched, split, known, -, numbers⟩ := places 0 _ rfl
    cases split
    obtain ⟨-, -, slot, index, -, means⟩ := numbers 0 1 rfl
    have goto : Opcode.ofMnemonic? "goto" = some .goto := by
      rw [ofMnemonic?_eq_find?]
      decide +kernel
    cases goto.symm.trans known
    refine ⟨_, first, st, assembled, fetched, ?_⟩
    cases slot with
    | a => exact means.mpr (by decide)
    | b => cases index
    | c => cases index
  · have stops := (numbers_mean (going 70000)).2 _ tamed
    exact stops

/-- A distance of 40000 statements is one that the operand cannot be taken for, and is assembled. -/
theorem going_wraps : ¬ Opcode.goto.Represents .a 40000 ∧ ∃ b st, assemble (going 40000) = .ok b ∧
    b.statements[1]? = some st ∧ Opcode.ofCode? st.op = some .goto ∧
    Opcode.goto.readings st .a = -25536 := by
  obtain ⟨b, assembled, facts⟩ := (Option.any_eq_true _ _).mp going_far
  obtain ⟨st, fetched, facts⟩ := (Option.any_eq_true _ _).mp facts
  obtain ⟨opcode, reading⟩ := of_decide_eq_true facts
  exact ⟨by decide, b, st, ok_of_toOption assembled, fetched, opcode, reading⟩

end GameBytecode.Assembly
