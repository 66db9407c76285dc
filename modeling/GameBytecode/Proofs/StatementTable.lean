import GameBytecode.Proofs.ControlFlow
import GameBytecode.Proofs.OperandSpans
import GameBytecode.Proofs.StatementCount

/-!
Runs of a checked module keep to the table of its statements. The check has looked at every opcode
and every relative branch, a jump is looked at when it is made, and all else goes on from one
statement to the next; so a run can leave the table only behind its last statement, or on entering a
function that starts elsewhere.
-/
namespace GameBytecode

/-- Where the statement at an index goes when it is a relative branch and the branch is taken. -/
def Statement.branchTarget? (index : Nat) (s : Statement) : Option Int :=
  match Opcode.ofCode? s.op with
  | some (.branch _) => some (index + signedOperand s.b)
  | some .goto => some (index + signedOperand s.a)
  | _ => none

/-- A statement that is a relative branch and is taken on a memory. -/
inductive Statement.Takes (memory : Memory) (s : Statement) : Prop where
  | branch {condition : Condition} {x : Word} (opcode : Opcode.ofCode? s.op = some (.branch condition))
      (read : memory.read s.a.toNat = .ok x) (holds : condition.holds x = true) : Takes memory s
  | goto (opcode : Opcode.ofCode? s.op = some .goto) : Takes memory s

namespace Module
variable {m : Module} {place : Int}

def HasStatement (m : Module) (place : Int) : Prop := 0 ≤ place ∧ place < m.statements.size

/-- A place in the table of statements, or the one behind it. -/
def Reaches (m : Module) (place : Int) : Prop := 0 ≤ place ∧ place ≤ m.statements.size

theorem HasStatement.reaches (h : m.HasStatement place) : m.Reaches place :=
  ⟨h.1, Int.le_of_lt h.2⟩

theorem HasStatement.next (h : m.HasStatement place) : m.Reaches (place + 1) := by
  obtain ⟨low, high⟩ := h
  exact ⟨by omega, high⟩

theorem HasStatement.of_getElem? {index : Nat} {s : Statement}
    (h : m.statements[index]? = some s) : m.HasStatement index := by
  obtain ⟨inside, -⟩ := Array.getElem?_eq_some_iff.mp h
  exact ⟨Int.natCast_nonneg _, by exact_mod_cast inside⟩

end Module

namespace Validation
variable {m : Module} {index : Nat} {s : Statement}

theorem check_at (h : check m = .ok ()) (hs : m.statements[index]? = some s) :
    checkStatement m index s = .ok () := by
  have checked := checkFrom_ok h ((Array.getElem?_toList ..).trans hs)
  rwa [Nat.zero_add] at checked

theorem checkBranch_ok {op : Opcode} {operand : UInt16}
    (h : checkBranch m index op operand = .ok ()) :
    m.HasStatement (index + signedOperand operand) := by
  simp only [checkBranch] at h
  split at h
  · cases h
  · rename_i inside
    exact ⟨by omega, by omega⟩

theorem checkStatement_lands (h : checkStatement m index s = .ok ()) {target : Int}
    (ht : s.branchTarget? index = some target) : m.HasStatement target := by
  unfold Statement.branchTarget? at ht
  unfold checkStatement at h
  cases ho : Opcode.ofCode? s.op with
  | none =>
    rw [ho] at ht
    cases ht
  | some op =>
    rw [ho] at h ht
    dsimp only at h
    split at h
    · cases op with
      | branch condition =>
        cases ht
        obtain ⟨_, -, lands⟩ := ok_of_bind h
        exact checkBranch_ok lands
      | goto =>
        cases ht
        exact checkBranch_ok h
      | _ => cases ht
    · obtain ⟨_, thrown, -⟩ := ok_of_bind h
      cases thrown

end Validation

section step
variable {settings : Settings} {m : Module} {index : Nat} {s : Statement} {st : Store}
  {target : Int}

theorem Step.jumpTo_of_hasStatement (h : m.HasStatement target) :
    jumpTo settings m target = .done (.jump target) := by
  obtain ⟨low, high⟩ := h
  unfold jumpTo
  rw [if_neg]
  · rfl
  · simp only [Bool.and_eq_true, Bool.or_eq_true, decide_eq_true_eq]
    omega

/-- With bounds checks a jump is made to a statement or not at all. -/
theorem Step.jumpTo_checked (bounds : settings.boundsCheck = true) {op : Opcode} (jumps : op.Jumps) :
    (jumpTo settings m target).Ends op.Raises
      fun control => ∀ place, control = .jump place → m.HasStatement place := by
  unfold jumpTo
  split
  · exact ⟨trivial, fun _ _ => jumps, fun _ h => Fault.noConfusion h⟩
  · rename_i inside
    simp only [bounds, Bool.true_and, Bool.or_eq_true, decide_eq_true_eq] at inside
    intro place h
    cases h
    exact ⟨by omega, by omega⟩

theorem step_jump (bounds : settings.boundsCheck = true)
    (h : (step settings m index s st).1 = .ok (.jump target)) : m.HasStatement target := by
  obtain ⟨op, ho, -⟩ := (step_ends settings m index s st).1 _ h
  have sends := (step_sends settings m index st ho).1 _ h
  have ends : (Step.effect settings m index s op).Ends op.Raises
      fun control => ∀ place, control = .jump place → m.HasStatement place := by
    cases op with
    | branch condition =>
      simp only [Step.effect, Plan.word, Plan.read_bind, Plan.done_bind, Plan.pure_eq, Plan.Ends]
      intro x
      split
      · exact Step.jumpTo_checked bounds trivial
      · exact fun place hp => Control.noConfusion hp
    | goto => exact Step.jumpTo_checked bounds trivial
    | jump => exact fun ws => Step.jumpTo_checked bounds trivial
    | jumpTable => exact fun pointer offset ws => Step.jumpTo_checked bounds trivial
    | call argc =>
      obtain ⟨function, called⟩ := sends
      cases called
    | _ => cases sends
  unfold step at h
  rw [ho] at h
  exact (Plan.run_ends (.invalidGlobal op) (.invalidString op) s st ends).1 _ h target rfl

theorem step_taken (ht : s.branchTarget? index = some target) (taken : s.Takes st.memory) :
    step settings m index s st = (Step.jumpTo settings m target).run s st := by
  unfold Statement.branchTarget? at ht
  unfold step
  cases taken with
  | goto opcode =>
    rw [opcode] at ht ⊢
    cases ht
    rfl
  | branch opcode read holds =>
    rw [opcode] at ht ⊢
    cases ht
    obtain ⟨ws, hs, rfl⟩ := Memory.slice_of_read read
    simp only [Step.effect, Plan.word, Plan.read_bind, Plan.done_bind, Plan.pure_eq, Plan.run,
      show Place.a.address s = s.a.toNat from rfl, hs, if_pos holds]

/-- A relative branch to a statement goes there when it is taken, and is never refused. -/
theorem step_branch (ht : s.branchTarget? index = some target) (has : m.HasStatement target) :
    (s.Takes st.memory → step settings m index s st = (.ok (.jump target), st)) ∧
      ∀ place, (step settings m index s st).1 ≠ .error (.invalidJump place) := by
  constructor
  · intro taken
    rw [step_taken ht taken, Step.jumpTo_of_hasStatement has]
    rfl
  unfold Statement.branchTarget? at ht
  unfold step
  intro place h
  cases ho : Opcode.ofCode? s.op with
  | none =>
    rw [ho] at ht
    cases ht
  | some op =>
    rw [ho] at ht h
    cases op with
    | goto =>
      cases ht
      simp only [Step.effect, Step.jumpTo_of_hasStatement has, Plan.run] at h
      cases h
    | branch condition =>
      cases ht
      simp only [Step.effect, Plan.word, Plan.read_bind, Plan.done_bind, Plan.pure_eq,
        Step.jumpTo_of_hasStatement has, Plan.run] at h
      cases hs : st.memory.slice (Place.a.address s) 1 with
      | error e =>
        rw [hs, Memory.slice_error hs] at h
        cases h
      | ok ws =>
        rw [hs] at h
        dsimp only at h
        split at h <;> cases h
    | _ => cases ht

end step

/-- Every call in progress is made at a statement, and the machine stands at one if at any. -/
structure CallState.Tabled (m : Module) (c : CallState) : Prop where
  frames : ∀ f ∈ c.calls.frames, m.HasStatement f.statement
  here : c.statement = 0 ∨ m.HasStatement c.statement

/-- A turn goes on in the table of statements or right behind it. -/
def Turn.Tabled (m : Module) : Turn → Prop
  | .go next | .builtin _ next => m.Reaches next
  | .returned | .fault _ => True

theorem CallState.Tabled.at {m : Module} {c : CallState} (h : c.Tabled m) {index : Nat}
    (has : m.HasStatement index) : { c with statement := index : CallState }.Tabled m :=
  ⟨h.frames, .inr has⟩

namespace Machine
variable {v : Machine} {m : Module} {number : Nat}

theorem enter_tabled (number : Nat) (h : v.control.Tabled m) :
    (v.enter m number).2.control.Tabled m ∧
      ∀ first, (v.enter m number).1 = .ok first → m.HasStatement first := by
  simp only [enter]
  cases ha : v.admission m number with
  | error e => exact ⟨h, fun first entered => by cases entered⟩
  | ok f =>
    obtain ⟨-, -, -, -, -, past⟩ := admission_ok ha
    have entry : m.HasStatement f.entry.toInt.toNat :=
      ⟨Int.natCast_nonneg _, by exact_mod_cast past⟩
    simp only [act_eq]
    constructor
    · refine ⟨?_, ?_⟩
      · intro frame hf
        rcases List.mem_cons.mp hf with rfl | hf
        · rcases h.here with outside | here
          · dsimp only
            rw [outside]
            exact ⟨Int.le_refl 0, by omega⟩
          · exact here
        · exact h.frames frame hf
      · exact h.here
    · intro first entered
      cases hp : (passArguments v.settings.deadbeefLocals f v.argc v.store).1 with
      | error e =>
        rw [hp] at entered
        cases entered
      | ok _ =>
        rw [hp] at entered
        cases entered
        exact entry

theorem leave_tabled (h : v.control.Tabled m) :
    (v.leave m).2.control.Tabled m ∧
      ((v.leave m).1 = .ok () → m.HasStatement (v.leave m).2.control.statement) := by
  simp only [leave]
  cases hp : v.control.calls.pop with
  | error e => exact ⟨h, fun left => by cases left⟩
  | ok popped =>
    obtain ⟨frame, calls⟩ := popped
    have kept := restoreLocals_calls { v with control.calls := calls } m
    unfold CallStack.pop at hp
    split at hp
    · cases hp
    · rename_i top rest stack
      cases hp
      have frames := h.frames
      rw [stack] at frames
      obtain ⟨here, below⟩ := List.forall_mem_cons.mp frames
      dsimp only
      refine ⟨⟨?_, .inr here⟩, fun _ => here⟩
      rw [kept]
      intro f hf
      exact below f (by simpa [stack] using hf)

theorem call_tabled (h : v.control.Tabled m) {index : Nat} (has : m.HasStatement index) :
    (v.call m index number).2.control.Tabled m ∧ (v.call m index number).1.Tabled m := by
  unfold call
  split
  · exact ⟨h, trivial⟩
  · exact ⟨h, has.next⟩
  · obtain ⟨tabled, first⟩ := enter_tabled number h
    cases he : v.enter m number with
    | mk result u =>
      rw [he] at tabled first
      cases result with
      | error e => exact ⟨tabled, trivial⟩
      | ok entry => exact ⟨tabled, (first entry rfl).reaches⟩

theorem return_tabled {frame : RunFrame} (h : v.control.Tabled frame.program) (index : Nat)
    (value : UInt16) : (v.follow frame index (.ret value)).2.control.Tabled frame.program ∧
      (v.follow frame index (.ret value)).1.Tabled frame.program := by
  rw [follow_ret]
  obtain ⟨store, -, ⟨e, he, -⟩ | ⟨-, he⟩⟩ := returnFrom_cases frame.program value v <;> rw [he]
  · exact ⟨h, trivial⟩
  · obtain ⟨tabled, here⟩ := leave_tabled (v := v.setStore store) h
    cases hl : (v.setStore store).leave frame.program with
    | mk result u =>
      rw [hl] at tabled here
      cases result with
      | error e => exact ⟨tabled, trivial⟩
      | ok _ =>
        dsimp only
        split
        · exact ⟨tabled, trivial⟩
        · exact ⟨tabled, (here rfl).next⟩

/-- With bounds checks every turn keeps to the table. -/
theorem turn_tabled {frame : RunFrame} (executed : Nat) (next : Int)
    (bounds : v.settings.boundsCheck = true) (h : v.control.Tabled frame.program) :
    (v.turn frame executed next).2.control.Tabled frame.program ∧
      (v.turn frame executed next).1.Tabled frame.program := by
  rcases turn_cases frame executed next v with ⟨kind, ht, -⟩ |
    ⟨st, result, store, fetched, hs, ht⟩ <;> rw [ht]
  · exact ⟨h, trivial⟩
  · have has : frame.program.HasStatement next.toNat := .of_getElem? fetched
    have moved : (v.ran frame.program next.toNat store).control.Tabled frame.program := by
      rw [ran_control]
      exact h.at has
    cases result with
    | error e => exact ⟨moved, trivial⟩
    | ok control =>
      cases control with
      | next => exact ⟨moved, has.next⟩
      | jump target => exact ⟨moved, (step_jump bounds (congrArg Prod.fst hs)).reaches⟩
      | call function argc =>
        exact call_tabled (v := { v.ran frame.program next.toNat store with argc }) moved has
      | ret value => exact return_tabled moved next.toNat value

end Machine

namespace Configuration
variable {v : Machine} {c c' : Configuration} {s : Session} {waiting : List Waiting}

/-- Every run in progress goes on in the table of statements or right behind it. -/
structure Tabled (m : Module) (c : Configuration) : Prop where
  control : c.machine.control.Tabled m
  task : ∀ {frame executed next}, c.task = .fetch frame executed next → m.Reaches next
  waiting : ∀ {frame executed next}, .run frame executed next ∈ c.waiting → m.Reaches next

theorem execute_tabled {number : Nat} (h : Tabled s.machine.program ⟨s, .execute number, waiting⟩) :
    Tabled s.machine.program (execute number s waiting) := by
  have entered {result : Except Fault Nat} {u : Machine}
      (he : (s.onMachine Machine.beginRun).machine.enter s.machine.program number = (result, u)) :
      u.control.Tabled s.machine.program ∧
        ∀ first, result = .ok first → s.machine.program.HasStatement first := by
    have tabled := Machine.enter_tabled (v := (s.onMachine Machine.beginRun).machine)
      (m := s.machine.program) number h.control
    rw [he] at tabled
    exact tabled
  rcases execute_cases number s waiting with ⟨first, u, -, he, hx⟩ | ⟨n, body, -, -, hx⟩ |
    ⟨kind, hx, -⟩ | ⟨kind, u, -, he, hx⟩ <;> rw [hx]
  · obtain ⟨tabled, has⟩ := entered he
    refine ⟨tabled, ?_, h.waiting⟩
    rintro _ _ _ ⟨⟩
    exact (has first rfl).reaches
  · refine ⟨h.control, nofun, ?_⟩
    intro frame executed next hw
    exact h.waiting ((List.mem_cons.mp hw).resolve_left nofun)
  · exact ⟨h.control, nofun, h.waiting⟩
  · exact ⟨(entered he).1, nofun, h.waiting⟩

theorem fetch_tabled {frame : RunFrame} {executed : Nat} {next : Int}
    (bounds : s.machine.settings.boundsCheck = true)
    (h : Tabled frame.program ⟨s, .fetch frame executed next, waiting⟩) :
    Tabled frame.program (fetch frame executed next s waiting) := by
  obtain ⟨tabled, goes⟩ := Machine.turn_tabled executed next bounds h.control
  cases ht : s.machine.turn frame executed next with
  | mk turn u =>
    rw [show (machine ⟨s, .fetch frame executed next, waiting⟩).turn frame executed next =
      s.machine.turn frame executed next from rfl, ht] at tabled goes
    rcases fetch_cases ht waiting with ⟨next', rfl, hx⟩ | ⟨n, next', body, rfl, -, hx⟩ | ⟨-, hx⟩ |
      ⟨kind, -, hx⟩ <;> rw [hx]
    · refine ⟨tabled, ?_, h.waiting⟩
      rintro _ _ _ ⟨⟩
      exact goes
    · refine ⟨tabled, nofun, ?_⟩
      intro _ _ _ hw
      rcases List.mem_cons.mp hw with same | hw
      · rw [(Waiting.run.inj same).2.2]
        exact goes
      · exact h.waiting hw
    · exact ⟨tabled, nofun, h.waiting⟩
    · exact ⟨tabled, nofun, h.waiting⟩

theorem conclude_tabled {m : Module} {outcome : Except Fault Unit}
    (control : s.machine.control.Tabled m)
    (waits : ∀ {frame executed next}, .run frame executed next ∈ waiting → m.Reaches next)
    (hn : conclude outcome s waiting = some c') : Tabled m c' := by
  rcases conclude_cases hn with ⟨frame, executed, next, rest, rfl, -, rfl⟩ |
    ⟨frame, executed, next, rest, kind, rfl, -, rfl⟩ | ⟨u, rest, rfl, rfl⟩
  · refine ⟨control, ?_, fun hw => waits (List.mem_cons_of_mem _ hw)⟩
    rintro _ _ _ ⟨⟩
    exact waits List.mem_cons_self
  · exact ⟨control, nofun, fun hw => waits (List.mem_cons_of_mem _ hw)⟩
  · exact ⟨control, nofun, fun hw => waits (List.mem_cons_of_mem _ hw)⟩

theorem perform_tabled {m : Module} {p : HostProgram} (steady : p.Steady)
    (h : Tabled m ⟨s, .perform p, waiting⟩) (hn : perform s waiting p = some c') : Tabled m c' := by
  rcases perform_cases hn with ⟨outcome, -, hc⟩ | ⟨number, k, -, rfl⟩ | ⟨s', p', rfl, -, kept⟩
  · exact conclude_tabled h.control h.waiting hc
  · refine ⟨h.control, nofun, ?_⟩
    intro _ _ _ hw
    exact h.waiting ((List.mem_cons.mp hw).resolve_left nofun)
  · refine ⟨?_, nofun, h.waiting⟩
    rw [show (machine ⟨s', .perform p', waiting⟩).control = _ from kept steady]
    exact h.control

theorem Tabled.next (orderly : c.Orderly v) (bounds : v.settings.boundsCheck = true)
    (h : c.Tabled v.program) (hn : c.next = some c') : c'.Tabled v.program := by
  obtain ⟨s, task, waiting⟩ := c
  have program : s.machine.program = v.program := orderly.atop.program
  cases task with
  | execute number =>
    cases hn
    rw [← program] at h ⊢
    exact execute_tabled h
  | fetch frame executed next =>
    cases hn
    have same : frame.program = v.program := orderly.fits.1
    have settings : s.machine.settings = v.settings := orderly.atop.settings
    rw [← same] at h ⊢
    exact fetch_tabled (by rw [settings]; exact bounds) h
  | unwind m exitDepth outcome =>
    cases hn
    obtain rfl : m = v.program := orderly.fits.1
    simp only [unwind]
    split
    · exact ⟨(Machine.leave_tabled h.control).1, by rintro _ _ _ ⟨⟩, h.waiting⟩
    · exact ⟨h.control, by rintro _ _ _ ⟨⟩, h.waiting⟩
  | perform p => exact perform_tabled orderly.fits.1 h hn
  | answer outcome =>
    obtain ⟨k, rest, rfl, rfl⟩ := answer_cases rfl hn
    exact ⟨h.control, by rintro _ _ _ ⟨⟩, fun hw => h.waiting (List.mem_cons_of_mem _ hw)⟩

theorem tabled_after {n number : Nat} (bounds : s.machine.settings.boundsCheck = true) (hs : s.Idle)
    (hc : after n (start number s) = some c) :
    c.Orderly s.machine ∧ c.Tabled s.machine.program := by
  have started : (start number s).Tabled s.machine.program := by
    refine ⟨?_, nofun, nofun⟩
    rw [show (machine (start number s)).control = _ from hs.control]
    exact ⟨nofun, .inl rfl⟩
  have orderly : (start number s).Orderly s.machine := ⟨.refl hs.steady, rfl⟩
  exact after_invariant (P := fun c => c.Orderly s.machine ∧ c.Tabled s.machine.program)
    ⟨orderly, started⟩ (fun d d' h hn => ⟨(h.1.follows hn).orderly, h.2.next h.1 bounds hn⟩) hc

end Configuration

/-- The faults of control that has left the table of statements. -/
def Fault.OffTable : Fault → Prop
  | .unknownOpcode _ | .invalidJump _ | .invalidStatement _ => True
  | _ => False

theorem Fault.OfCall.not_offTable {e : Fault} (h : e.OfCall) : ¬ e.OffTable := by
  cases e <;> first | exact h.elim | exact id

theorem Fault.OfLeaving.not_offTable {e : Fault} (h : e.OfLeaving) : ¬ e.OffTable := by
  cases e <;> first | exact h.elim | exact id

/-- A turn at a relative branch to a statement is not refused for where it goes. -/
theorem Machine.turn_branch {v : Machine} {frame : RunFrame} {executed : Nat} {next target : Int}
    {st : Statement} (fetched : frame.program.statements[next.toNat]? = some st)
    (ht : st.branchTarget? next.toNat = some target) (has : frame.program.HasStatement target)
    (place : Int) : (v.turn frame executed next).1 ≠ .fault (.invalidJump place) := by
  intro faulted
  cases turn_origin faulted with
  | effect fetched' h =>
    rw [fetched] at fetched'
    cases fetched'
    exact (step_branch ht has).2 place h
  | call h => exact h
  | misplaced _ _ _ h =>
    obtain ⟨f, -, -, h⟩ := h
    cases h
  | leaving u size control h => exact leave_origin h

namespace Configuration
variable {v : Machine} {c c' : Configuration} {s : Session} {kind : Fault}

theorem next_branch {frame : RunFrame} {executed : Nat} {next target : Int} {st : Statement}
    (task : c.task = .fetch frame executed next) (runs : c.runsStatement = true)
    (fetched : frame.program.statements[next.toNat]? = some st)
    (ht : st.branchTarget? next.toNat = some target) (has : frame.program.HasStatement target)
    (taken : st.Takes c.machine.store.memory) :
    ∃ c', c.next = some c' ∧ c'.task = .fetch frame (executed + 1) target := by
  obtain ⟨s, _, waiting⟩ := c
  cases task
  refine ⟨_, rfl, ?_⟩
  simp only [runsStatement, Bool.and_eq_true, Bool.not_eq_true', decide_eq_true_eq] at runs
  obtain ⟨⟨within, low⟩, high⟩ := runs
  rcases Machine.turn_cases frame executed next s.machine with ⟨kind, -, stopped⟩ |
    ⟨st', result, store, fetched', hs, turned⟩
  · rcases stopped with ⟨-, reached⟩ | ⟨-, outside⟩
    · rw [reached] at within
      cases within
    · omega
  · rw [fetched] at fetched'
    cases fetched'
    have stepped : step s.machine.settings frame.program next.toNat st s.machine.store =
        (.ok (.jump target), s.machine.store) := (step_branch ht has).1 taken
    rw [hs] at stepped
    obtain ⟨rfl, rfl⟩ := Prod.mk.inj stepped
    simp only [fetch, turned]
    rfl

/-- How control leaves the table of statements of a checked module: a jump to a place found in memory
is refused, a run goes on behind the last statement, or a function is entered that does not start at
a statement. -/
inductive LeavesTable (c : Configuration) : Fault → Prop where
  | jump {frame : RunFrame} {executed : Nat} {next : Int} {st : Statement} (place : Int)
      (task : c.task = .fetch frame executed next)
      (fetched : frame.program.statements[next.toNat]? = some st)
      (opcode : Opcode.ofCode? st.op = some .jump ∨ Opcode.ofCode? st.op = some .jumpTable) :
      LeavesTable c (.invalidJump place)
  | behind {frame : RunFrame} {executed : Nat}
      (task : c.task = .fetch frame executed frame.program.statements.size) :
      LeavesTable c (.invalidStatement frame.program.statements.size)
  | calling {frame : RunFrame} {executed : Nat} {next : Int} {st : Statement} {function : Word}
      {argc : Nat} {f : FunctionRecord} (task : c.task = .fetch frame executed next)
      (fetched : frame.program.statements[next.toNat]? = some st)
      (called : (step c.machine.settings frame.program next.toNat st c.machine.store).1 =
        .ok (.call function argc))
      (bytecode : frame.program.callee function.toNat = .ok .bytecode)
      (found : frame.program.function? function.toNat = some f) :
      LeavesTable c (.invalidStatement f.entry.toInt)
  | executing {number : Nat} {f : FunctionRecord} (task : c.task = .execute number)
      (bytecode : c.machine.program.executable number = .ok .bytecode)
      (found : c.machine.program.function? number = some f) :
      LeavesTable c (.invalidStatement f.entry.toInt)

/-- In a checked module only jumps to places found in memory are refused. -/
theorem step_offTable {m : Module} {settings : Settings} {index : Nat} {st : Statement}
    {store : Store} (hm : Validation.check m = .ok ()) (fetched : m.statements[index]? = some st)
    (h : (step settings m index st store).1 = .error kind) (off : kind.OffTable) :
    ∃ place, kind = .invalidJump place ∧
      (Opcode.ofCode? st.op = some .jump ∨ Opcode.ofCode? st.op = some .jumpTable) := by
  have checked := Validation.check_at hm fetched
  obtain ⟨op, ho, -⟩ := Validation.checkStatement_ok checked
  have raises := (step_sends settings m index store ho).2 kind h
  have jump : ∃ place, kind = .invalidJump place := by
    have effect := raises.effect
    cases kind with
    | invalidJump place => exact ⟨place, rfl⟩
    | unknownOpcode code =>
      -- the opcode has one, and by `Step.effect_handled` no operation refuses what it is handed
      exact effect.elim
    | invalidStatement place => exact effect.elim
    | _ => exact off.elim
  obtain ⟨place, rfl⟩ := jump
  have never {target : Int} (ht : st.branchTarget? index = some target) : False :=
    (step_branch ht (Validation.checkStatement_lands checked ht)).2 place h
  refine ⟨place, rfl, ?_⟩
  have jumps := raises.jumps place rfl
  unfold Statement.branchTarget? at never
  rw [ho] at never ⊢
  cases op with
  | branch condition => exact (never rfl).elim
  | goto => exact (never rfl).elim
  | jump => exact .inl rfl
  | jumpTable => exact .inr rfl
  | _ => exact jumps.elim

theorem Tabled.leaves (hm : Validation.check v.program = .ok ()) (orderly : c.Orderly v)
    (h : c.Tabled v.program) (off : kind.OffTable) (raised : c.Raises kind) :
    c.task = .perform (.fail kind) ∨ c.LeavesTable kind := by
  cases raised with
  | builtin task => exact .inl task
  | executing task h =>
    rcases h with h | ⟨bytecode, f, found, -, rfl⟩
    · exact absurd off h.not_offTable
    · exact .inr (.executing task bytecode found)
  | @fetching frame executed next kind task faults =>
    right
    have same : frame.program = v.program := by
      have fits := orderly.fits
      rw [task] at fits
      exact fits.1
    rw [← same] at hm
    cases faults with
    | limit reached => exact off.elim
    | outside outside =>
      obtain ⟨low, high⟩ := h.task task
      rw [← same] at high
      have behind : next = frame.program.statements.size := by omega
      rw [behind]
      rw [behind] at task
      exact .behind task
    | effect fetched faulted =>
      obtain ⟨place, rfl, opcode⟩ := step_offTable hm fetched faulted off
      exact .jump place task fetched opcode
    | call h => exact absurd off h.not_offTable
    | misplaced fetched called bytecode misplaced =>
      obtain ⟨f, found, -, rfl⟩ := misplaced
      exact .calling task fetched called bytecode found
    | returning address => exact off.elim
    | leaving u size control left => exact absurd off (Machine.leave_origin left).not_offTable

/-- In every run of a machine that was loaded with bounds checks, a relative branch leads to a
statement, is not refused, and goes there when it is taken. No run meets an unknown opcode, and
whatever else tells that control has left the table comes from a builtin or in one of the ways of
`LeavesTable`. -/
theorem stays_in_table {image : Text.Bytes} {capacity heapBytes : Nat} {settings : Settings}
    (loaded : Machine.load image capacity heapBytes settings = .ok v)
    (bounds : settings.boundsCheck = true) (program : s.machine.program = v.program)
    (same : s.machine.settings = settings) (hs : s.Idle) {n number : Nat}
    (hc : after n (start number s) = some c) :
    (∀ frame executed next st target, c.task = .fetch frame executed next →
      frame.program.statements[next.toNat]? = some st →
      st.branchTarget? next.toNat = some target →
        frame.program.HasStatement target ∧
        (∀ place, (c.machine.turn frame executed next).1 ≠ .fault (.invalidJump place)) ∧
        (c.runsStatement = true → st.Takes c.machine.store.memory →
          ∃ c', c.next = some c' ∧ c'.task = .fetch frame (executed + 1) target)) ∧
    ∀ kind : Fault, kind.OffTable → c.task.fault? = some kind →
      ∃ k < n, ∃ d, after k (start number s) = some d ∧
        (d.task = .perform (.fail kind) ∨ d.LeavesTable kind) := by
  have hm : Validation.check s.machine.program = .ok () := by
    rw [program]
    exact (Machine.load_ok loaded).1.2 bounds
  have bounds : s.machine.settings.boundsCheck = true := by rw [same]; exact bounds
  constructor
  · intro frame executed next st target task fetched ht
    obtain ⟨orderly, -⟩ := tabled_after bounds hs hc
    have same : frame.program = s.machine.program := by
      have fits := orderly.fits
      rw [task] at fits
      exact fits.1
    have checked : Validation.check frame.program = .ok () := by
      rw [same]
      exact hm
    have has : frame.program.HasStatement target :=
      Validation.checkStatement_lands (Validation.check_at checked fetched) ht
    exact ⟨has, Machine.turn_branch fetched ht has,
      fun runs taken => next_branch task runs fetched ht has taken⟩
  · intro kind off faulted
    obtain ⟨k, earlier, d, hd, raised⟩ := fault_raised hc faulted
    obtain ⟨orderly, tabled⟩ := tabled_after bounds hs hd
    exact ⟨k, earlier, d, hd, tabled.leaves hm orderly off raised⟩

/-- A module whose first function branches to the last statement, which calls the second function. -/
def runsOffBuilder : Builder :=
  { Builder.empty with
    statements := #[.null, ⟨(Opcode.branch .nonzero).code, 28, 2, 0⟩, ⟨Opcode.done.code, 0, 0, 0⟩,
      Session.bareCall 29]
    functions := #[.null,
      { FunctionRecord.null with entry := 1 }, { FunctionRecord.null with entry := 2 }]
    globals := Builder.empty.globals ++ #[1, 2] }

theorem runsOff_loads :
    (Machine.load runsOffBuilder.bytes 0 0 { boundsCheck := true }).toOption.isSome := by
  decide +kernel

def runsOff : Machine :=
  (Machine.load runsOffBuilder.bytes 0 0 { boundsCheck := true }).toOption.get runsOff_loads

theorem runsOff_loaded :
    Machine.load runsOffBuilder.bytes 0 0 { boundsCheck := true } = .ok runsOff :=
  Session.eq_ok_get runsOff_loads

theorem runsOff_idle : Session.Idle ⟨runsOff, []⟩ :=
  Session.idle_of_load runsOff_loaded fun _ hb => absurd hb List.not_mem_nil

theorem runsOff_faults :
    (after 5 (start 1 ⟨runsOff, []⟩)).bind (·.task.fault?) = some (.invalidStatement 4) := by
  decide +kernel

theorem runsOff_leaves : Session.Idle ⟨runsOff, []⟩ ∧
    ∃ c, after 5 (start 1 ⟨runsOff, []⟩) = some c ∧ c.task.fault? = some (.invalidStatement 4) ∧
      ∃ k < 5, ∃ d, after k (start 1 ⟨runsOff, []⟩) = some d ∧
        (d.task = .perform (.fail (.invalidStatement 4)) ∨ d.LeavesTable (.invalidStatement 4)) := by
  obtain ⟨c, hc, faulted⟩ := Option.bind_eq_some_iff.mp runsOff_faults
  obtain ⟨-, -, settings, -⟩ := Machine.load_ok runsOff_loaded
  have program : (⟨runsOff, []⟩ : Session).machine.program = runsOff.program := by rfl
  have settings : (⟨runsOff, []⟩ : Session).machine.settings = { boundsCheck := true } := settings
  exact ⟨runsOff_idle, c, hc, faulted,
    (stays_in_table runsOff_loaded rfl program settings runsOff_idle hc).2 _ trivial faulted⟩

end Configuration
end GameBytecode
