import GameBytecode.Proofs.EntryPaths
import GameBytecode.Proofs.FunctionRegion

/-!
Numbers of builtins in function records. A record has one signed number both for the statement where a
function starts and, negated, for the builtin that stands for it. So it can hold the numbers from 1 to
2^31; of any other number of a source comes a function that is no builtin.
-/
namespace GameBytecode

namespace FunctionRecord
variable {record : FunctionRecord} {n : UInt32}

/-- The entry of a builtin: its number as a signed one, negated. Both may wrap. -/
theorem toInt_builtin_entry (n : UInt32) : (-n.toInt32).toInt =
    if n.toNat ≤ 0x80000000 then -(n.toNat : Int) else 0x100000000 - n.toNat := by
  have signed : n.toInt32.toInt = (n.toNat : Int).bmod (2 ^ 32) := BitVec.toInt_eq_toNat_bmod _
  have high := n.toNat_lt
  rw [Int32.toInt_neg, signed]
  simp only [Int.bmod]
  split <;> omega

theorem isBuiltin_iff (entry : record.entry = -n.toInt32) :
    record.isBuiltin = true ↔ 1 ≤ n ∧ n ≤ 0x80000000 := by
  have one : (1 : UInt32).toNat = 1 := rfl
  have half : (0x80000000 : UInt32).toNat = 0x80000000 := rfl
  have high := n.toNat_lt
  rw [isBuiltin, decide_eq_true_eq, Int32.lt_iff_toInt_lt, Int32.toInt_zero, entry,
    toInt_builtin_entry, UInt32.le_iff_toNat_le, UInt32.le_iff_toNat_le, one, half]
  split <;> omega

theorem builtin?_eq (entry : record.entry = -n.toInt32) :
    record.builtin? = if 1 ≤ n ∧ n ≤ 0x80000000 then some n else none := by
  have number : 0 - record.entry.toUInt32 = n := by
    rw [entry]
    simp
  have negative := isBuiltin_iff entry
  unfold builtin?
  rw [number]
  by_cases held : 1 ≤ n ∧ n ≤ 0x80000000
  · rw [if_pos held, if_pos (negative.mpr held)]
  · rw [if_neg held, if_neg fun h => held (negative.mp h)]

theorem entry_of_large (entry : record.entry = -n.toInt32) (large : 0x80000000 < n) :
    record.entry ≠ 0 ∧ (record.entry.toInt.toNat : Int) = 0x100000000 - n.toNat := by
  have above : 0x80000000 < n.toNat := UInt32.lt_iff_toNat_lt.mp large
  have high := n.toNat_lt
  have start := toInt_builtin_entry n
  rw [← entry, if_neg (Nat.not_le.mpr above)] at start
  constructor
  · intro none
    rw [none, Int32.toInt_zero] at start
    omega
  · rw [start]
    exact Int.toNat_of_nonneg (by omega)

theorem number_cases (n : UInt32) : (1 ≤ n ∧ n ≤ 0x80000000) ∨ n = 0 ∨ 0x80000000 < n := by
  rcases UInt32.lt_or_le 0x80000000 n with large | small
  · exact .inr (.inr large)
  · by_cases zero : n = 0
    · exact .inr (.inl zero)
    · have positive : 0 < n := UInt32.pos_iff_ne_zero.mpr zero
      exact .inl ⟨UInt32.le_iff_toNat_le.mpr (UInt32.lt_iff_toNat_lt.mp positive), small⟩

end FunctionRecord

namespace Assembly
variable {b b' : Builder} {f : FunctionSource} {d : Declared} {n : UInt32} {i : Nat}

section bodies
variable {functions : Array FunctionRecord} {number : Nat} {pairs : List (FunctionSource × Declared)}

theorem Vacant.record (vacant : Vacant functions number pairs) (hp : pairs[i]? = some (f, d)) :
    ∃ record, functions[number + i]? = some record ∧ record.entry = vacantEntry f := by
  induction pairs generalizing number i with
  | nil => cases hp
  | cons pair pairs ih =>
    obtain ⟨-, here, rest⟩ := vacant
    cases i with
    | zero =>
      cases hp
      exact here
    | succ i =>
      rw [show number + (i + 1) = number + 1 + i by omega]
      exact ih rest hp

theorem addBodies_builtin (vacant : Vacant b.functions number pairs)
    (h : pairs.foldlM (fun b (f, d) => addBody b f d) b = .ok b') (hp : pairs[i]? = some (f, d))
    (builtin : f.builtin = some n) : b'.functions[number + i]? = b.functions[number + i]? := by
  induction pairs generalizing b number i with
  | nil => cases hp
  | cons pair pairs ih =>
    obtain ⟨g, e⟩ := pair
    rw [List.foldlM_cons] at h
    obtain ⟨b₁, added, later⟩ := ok_of_bind h
    obtain ⟨vacant', -, -, others⟩ := addBody_vacant vacant added
    cases i with
    | zero =>
      cases hp
      obtain ⟨-, kept⟩ := addBodies_kept vacant' later
      rcases addBody_ok added with ⟨-, -, rfl⟩ | ⟨bytecode, -⟩
      · exact kept _ (Nat.lt_succ_self _)
      · cases builtin.symm.trans bytecode
    | succ i =>
      rw [show number + (i + 1) = number + 1 + i by omega, ih vacant' later hp]
      exact others _ (by omega)

end bodies

theorem assembled_builtin_entry {s : Source} (assembled : assemble s = .ok b)
    (hf : s.functions[i]? = some f) (builtin : f.builtin = some n) :
    ∃ record, b.functions[i + 1]? = some record ∧ record.entry = -n.toInt32 := by
  rw [assemble_eq] at assembled
  obtain ⟨⟨b₀, declared⟩, declarations, added⟩ := ok_of_bind assembled
  obtain ⟨-, -, vacant⟩ := declarations_ok declarations
  obtain ⟨-, length, -⟩ := declarations_names declarations
  have inside : i < declared.length := by
    rw [length]
    exact (List.getElem?_eq_some_iff.mp hf).1
  have paired : (s.functions.zip declared)[i]? = some (f, declared[i]) :=
    List.getElem?_zip_eq_some.mpr ⟨hf, List.getElem?_eq_getElem inside⟩
  obtain ⟨record, found, entry⟩ := vacant.record paired
  rw [← addBodies_builtin vacant added paired builtin, Nat.add_comm] at found
  refine ⟨record, found, ?_⟩
  simp only [entry, vacantEntry, builtin]

end Assembly

namespace Session
variable {m : Module} {number : Nat} {f : FunctionRecord}

theorem dispatch_builtin (m : Module) (number : Nat) (n : UInt32) (s : Session) :
    (∀ body, s.builtin? n.toNat = some body →
      s.dispatch m number (.ok (.builtin n)) = .invokes body s) ∧
    (s.builtin? n.toNat = none →
      s.dispatch m number (.ok (.builtin n)) = .refused (.badBuiltin n.toNat)) := by
  constructor
  · intro body registered
    simp only [dispatch, registered]
  · intro none
    simp only [dispatch, none]

theorem dispatch_bytecode (found : m.function? number = some f) (s : Session) :
    (∃ e, s.dispatch m number (.ok .bytecode) = .refused e) ∨
      ∃ v, s.dispatch m number (.ok .bytecode) = .enters f.entry.toInt.toNat { s with machine := v } := by
  simp only [dispatch, Machine.enter]
  cases admitted : s.machine.admission m number with
  | error e => exact .inl ⟨e, rfl⟩
  | ok g =>
    obtain ⟨same, -⟩ := Machine.admission_ok admitted
    cases found.symm.trans same
    dsimp only
    generalize Machine.act _ _ = passed
    obtain ⟨result, v⟩ := passed
    cases result with
    | error e => exact .inl ⟨e, rfl⟩
    | ok passed => exact .inr ⟨v, rfl⟩

end Session

namespace Configuration
open Assembly
variable {source : Source} {b : Builder} {f : FunctionSource} {i : Nat} {n : UInt32} {m : Module}
  {record : FunctionRecord}

/-- The verdicts on a function that a builtin stands for are those on a builtin of that number, of the
host that executes it and of a statement that calls it. -/
theorem verdicts_of_builtin (found : m.function? (i + 1) = some record)
    (builtin : record.builtin? = some n) (s : Session) :
    Entries m (i + 1) s (s.dispatch m (i + 1) (.ok (.builtin n)))
      (s.dispatch m (i + 1) (.ok (.builtin n))) := by
  have resolved := Machine.resolve_of_function? (Nat.succ_ne_zero i) found
  have executable : m.executable (i + 1) = .ok (.builtin n) := by
    simp only [Module.executable, resolved, Except.map, builtin]
  have callee : m.callee (i + 1) = .ok (.builtin n) := by
    simp only [Module.callee_eq resolved, builtin]
  have verdicts := entries m (i + 1) s
  rwa [executable, callee] at verdicts

theorem verdicts_of_bytecode (found : m.function? (i + 1) = some record)
    (bytecode : record.builtin? = none) (starts : record.entry ≠ 0) (s : Session) :
    Entries m (i + 1) s (s.dispatch m (i + 1) (.ok .bytecode))
      (s.dispatch m (i + 1) (.ok .bytecode)) := by
  have resolved := Machine.resolve_of_function? (Nat.succ_ne_zero i) found
  have executable : m.executable (i + 1) = .ok .bytecode := by
    simp only [Module.executable, resolved, Except.map, bytecode]
  have callee : m.callee (i + 1) = .ok .bytecode := by
    simp only [Module.callee_eq resolved, bytecode, if_neg starts]
  have verdicts := entries m (i + 1) s
  rwa [executable, callee] at verdicts

/-- A function that a source declares for a builtin. Its record names the builtin if and only if the
number is from 1 to 2^31; then the host and the statements that call it come to the body registered
under the number, or are told that there is none. Under the number 0 it is a blank function. Of a number
above 2^31 comes a bytecode function: whoever is not refused runs the statement at 2^32 less the number.
Of 2^31 itself this holds as far as a source with it is assembled at all: the entry is the one number whose
negation overflows, and where that is checked the process ends there, without a module. -/
theorem assembled_builtin (assembled : assemble source = .ok b) (small : b.bytes.length < 0x80000000)
    {capacity heapBytes : Nat} (loaded : Image.load b.bytes capacity heapBytes = .ok m)
    (declared : source.functions[i]? = some f) (builtin : f.builtin = some n) :
    ∃ record, m.function? (i + 1) = some record ∧
      (record.builtin? = some n ↔ 1 ≤ n ∧ n ≤ 0x80000000) ∧
      ∀ s : Session, ∃ host called, Entries m (i + 1) s host called ∧
        (1 ≤ n ∧ n ≤ 0x80000000 → host = called ∧
          (∀ body, s.builtin? n.toNat = some body → host = .invokes body s) ∧
          (s.builtin? n.toNat = none → host = .refused (.badBuiltin n.toNat))) ∧
        (n = 0 → host = .refused (.invalidStatement 0) ∧ called = .refused (.badBuiltin 0)) ∧
        (0x80000000 < n → host = called ∧ ((∃ e, host = .refused e) ∨
          ∃ v, host = .enters (0x100000000 - n.toNat) { s with machine := v })) := by
  obtain ⟨record, found, entry⟩ := assembled_builtin_entry assembled declared builtin
  rw [← (Builder.load_reproduces small loaded).1.functions] at found
  have number := FunctionRecord.builtin?_eq entry
  refine ⟨record, found, ?_, fun s => ?_⟩
  · rw [number]
    split
    · exact iff_of_true rfl ‹_›
    · rename_i other
      exact iff_of_false (Ne.symm (Option.some_ne_none n)) other
  rcases FunctionRecord.number_cases n with held | rfl | large
  · rw [if_pos held] at number
    refine ⟨_, _, verdicts_of_builtin found number s, fun _ => ⟨rfl, s.dispatch_builtin m (i + 1) n⟩,
      fun zero => ?_, fun large => absurd held.2 (UInt32.not_le.mpr large)⟩
    subst zero
    exact absurd held.1 (by decide)
  · have blank : m.Blank (i + 1) := ⟨Nat.succ_ne_zero i, record, found, entry⟩
    exact ⟨_, _, entries m (i + 1) s, fun held => absurd held.1 (by decide),
      fun _ => dispatch_blank s blank, fun large => absurd large (by decide)⟩
  · have other : ¬ (1 ≤ n ∧ n ≤ 0x80000000) := fun held => UInt32.not_le.mpr large held.2
    rw [if_neg other] at number
    obtain ⟨starts, first⟩ := FunctionRecord.entry_of_large entry large
    refine ⟨_, _, verdicts_of_bytecode found number starts s, fun held => absurd held other,
      fun zero => ?_, fun _ => ⟨rfl, ?_⟩⟩
    · subst zero
      exact absurd large (by decide)
    · have entered := s.dispatch_bytecode found
      rwa [first] at entered

end Configuration

open Assembly

/-- A function for the builtin 7, one for the largest number there is, and one with a body. -/
def numbered : Source where
  version := none
  fields := []
  globals := []
  functions := [
    ⟨"print", "", some 7, [], [], false, []⟩,
    ⟨"large", "", some 0xffffffff, [], [], false, []⟩,
    ⟨"main", "", none, [], [], false, [[.name "done"]]⟩]

theorem numbered_assembles : (assemble numbered).toOption.isSome := by
  simp only [assemble, addBody, body, statement, ofMnemonic?_eq_find?]
  decide +kernel

def numberedBuilder : Builder := (assemble numbered).toOption.get numbered_assembles

theorem numbered_loads : (Machine.load numberedBuilder.bytes 0 0 {}).toOption.isSome := by
  simp only [numberedBuilder, assemble, addBody, body, statement, ofMnemonic?_eq_find?]
  decide +kernel

def numberedMachine : Machine := (Machine.load numberedBuilder.bytes 0 0 {}).toOption.get numbered_loads

theorem numbered_loaded : Image.load numberedBuilder.bytes 0 0 = .ok numberedMachine.program :=
  (Machine.load_ok (Session.eq_ok_get numbered_loads)).1.1

/-- The image is small. The second function has no builtin; it starts at statement 1, and a machine
enters it there. -/
theorem numbered_facts : numberedBuilder.bytes.length < 0x80000000 ∧
    (numberedMachine.program.function? 2).any (fun f => f.builtin? = none ∧ f.entry ≠ 0) = true ∧
    (numberedMachine.beginRun.enter numberedMachine.program 2).1.toOption = some 1 := by
  simp only [numberedMachine, numberedBuilder, assemble, addBody, body, statement,
    ofMnemonic?_eq_find?]
  decide +kernel

def printing : Session := ⟨numberedMachine, [⟨7, "print", .emit "printed" .done⟩]⟩

namespace Configuration

/-- Whoever executes or calls the first function runs the builtin that is registered under 7, and is
told that there is none where none is registered. -/
theorem numbered_print :
    assemble numbered = .ok numberedBuilder ∧ numberedBuilder.bytes.length < 0x80000000 ∧
      Image.load numberedBuilder.bytes 0 0 = .ok numberedMachine.program ∧
      Entries numberedMachine.program 1 printing (.invokes (.emit "printed" .done) printing)
        (.invokes (.emit "printed" .done) printing) ∧
      Entries numberedMachine.program 1 ⟨numberedMachine, []⟩ (.refused (.badBuiltin 7))
        (.refused (.badBuiltin 7)) := by
  have assembled : assemble numbered = .ok numberedBuilder := Session.eq_ok_get numbered_assembles
  have small := numbered_facts.1
  obtain ⟨record, -, -, verdicts⟩ :=
    assembled_builtin assembled small numbered_loaded (i := 0) (n := 7) rfl rfl
  refine ⟨assembled, small, numbered_loaded, ?_, ?_⟩
  · obtain ⟨host, called, entries, inside, -⟩ := verdicts printing
    obtain ⟨same, registered, -⟩ := inside (by decide)
    rw [← same, registered (.emit "printed" .done) rfl] at entries
    exact entries
  · obtain ⟨host, called, entries, inside, -⟩ := verdicts ⟨numberedMachine, []⟩
    obtain ⟨same, -, unregistered⟩ := inside (by decide)
    rw [← same, unregistered rfl] at entries
    exact entries

/-- A source that declares the second function for the builtin 2^32 - 1 is assembled; the module says of
no builtin that it stands for the function, and a host that executes it runs the body of the third. -/
theorem numbered_large :
    assemble numbered = .ok numberedBuilder ∧
      Image.load numberedBuilder.bytes 0 0 = .ok numberedMachine.program ∧
      (numbered.functions[1]?).bind (·.builtin) = some 0xffffffff ∧
      ∃ record, numberedMachine.program.function? 2 = some record ∧
        record.builtin? ≠ some 0xffffffff ∧
        ∃ v, (execute 2 ⟨numberedMachine, []⟩ []).verdict = some (.enters 1 ⟨v, []⟩) := by
  obtain ⟨-, second, entered⟩ := numbered_facts
  obtain ⟨record, found, bytecode⟩ := (Option.any_eq_true _ _).mp second
  obtain ⟨bytecode, starts⟩ := of_decide_eq_true bytecode
  refine ⟨Session.eq_ok_get numbered_assembles, numbered_loaded, rfl, record, found, ?_, ?_⟩
  · rw [bytecode]
    exact Ne.symm (Option.some_ne_none _)
  · have verdicts := verdicts_of_bytecode found bytecode starts
      ((⟨numberedMachine, []⟩ : Session).onMachine Machine.beginRun)
    rw [verdicts.execute ⟨numberedMachine, []⟩ [] rfl rfl]
    cases ran : numberedMachine.beginRun.enter numberedMachine.program 2 with
    | mk result v =>
      rw [ran] at entered
      obtain rfl := ok_of_toOption entered
      refine ⟨v, ?_⟩
      simp only [Session.dispatch, Session.onMachine, ran]
      rfl

end Configuration
end GameBytecode
