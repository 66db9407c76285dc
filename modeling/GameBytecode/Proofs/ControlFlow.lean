import GameBytecode.Proofs.FaultOrigin
import GameBytecode.Proofs.StatementCount
import GameBytecode.Proofs.StatementOwner

/-!
Control within the bodies of functions. The body of a function goes from its first statement to the
first statement of another function. Where no statement sends control out of its body, a run executes
for every function statements of its body only, whatever numbers memory holds and however builtins
execute functions again.
-/
namespace GameBytecode

/-- Statements and the functions whose bodies they are. -/
structure Code where
  statements : Array Statement
  functions : Array FunctionRecord

namespace Code

def Starts (code : Code) (number entry : Nat) : Prop :=
  code.functions[number]?.bind (·.firstStatement?) = some entry

/-- The statement comes after the start of the function, and no other function starts between. -/
def Owns (code : Code) (number index : Nat) : Prop :=
  ∃ entry, code.Starts number entry ∧ entry ≤ index ∧
    ∀ other start, other ≠ number → code.Starts other start → start ≤ index → start < entry

/-- The place is that of a statement in the body of the function. -/
structure Holds (code : Code) (number : Nat) (place : Int) : Prop where
  nonnegative : 0 ≤ place
  inside : place.toNat < code.statements.size
  owned : code.Owns number place.toNat

/-- Control from a statement of a function goes to the body of that function, or comes back there
when the function called has returned. -/
def Keeps (code : Code) (number index : Nat) : Control → Prop
  | .next | .call .. => code.Holds number (index + 1)
  | .jump target => code.Holds number target
  | .ret _ => True

/-- No statement sends control out of the body that it is in, and every body starts with a statement. -/
structure Sealed (code : Code) : Prop where
  entries : ∀ {number entry}, code.Starts number entry → code.Holds number entry
  keeps : ∀ {number index st}, code.Owns number index → code.statements[index]? = some st →
    ∃ op, Opcode.ofCode? st.op = some op ∧
      ∀ control, op.Sends index st control → code.Keeps number index control

end Code

namespace Module
variable {m : Module} {number index : Nat}

def code (m : Module) : Code := ⟨m.statements, m.functions⟩

theorem functionAt?_of_owns (owned : m.code.Owns number index) : m.functionAt? index = some number := by
  obtain ⟨entry, starts, before, nearest⟩ := owned
  refine functionAt?_eq_some_iff.mpr ⟨entry, starts, before, fun other start starts' before' => ?_⟩
  by_cases same : other = number
  · subst same
    cases starts.symm.trans starts'
    exact .inr ⟨rfl, Nat.le_refl _⟩
  · exact .inl (nearest other start same starts' before')

/-- The code is sealed, and every function but function 0 has a first statement or is a builtin. -/
structure Sealed (m : Module) : Prop where
  code : m.code.Sealed
  entered : ∀ {number f}, m.function? number = some f → number ≠ 0 → f.entry ≠ 0

theorem Sealed.starts (hm : m.Sealed) {f : FunctionRecord} (found : m.function? number = some f)
    (h0 : number ≠ 0) (bytecode : f.builtin? = none) :
    m.code.Starts number f.entry.toInt.toNat ∧ 0 < f.entry ∧
      f.entry.toInt.toNat < m.statements.size := by
  have nonnegative : ¬ f.entry < 0 := by
    intro negative
    simp only [FunctionRecord.builtin?, FunctionRecord.isBuiltin, negative, decide_true, if_true]
      at bytecode
    cases bytecode
  have positive : 0 < f.entry := by
    have nonzero := hm.entered found h0
    rw [Int32.lt_iff_toInt_lt] at nonnegative ⊢
    rw [ne_eq, ← Int32.toInt_inj] at nonzero
    simp only [Int32.toInt_zero] at *
    omega
  have starts : m.code.Starts number f.entry.toInt.toNat := by
    have first : (m.function? number).bind (·.firstStatement?) = some f.entry.toInt.toNat := by
      rw [found]
      exact if_pos positive
    exact first
  exact ⟨starts, positive, (hm.code.entries starts).inside⟩

theorem Sealed.not_misplaced (hm : m.Sealed) {e : Fault} (h0 : number ≠ 0)
    (bytecode : ∀ f, m.function? number = some f → f.builtin? = none) :
    ¬ m.Misplaced number e := by
  rintro ⟨f, found, outside, -⟩
  obtain ⟨-, positive, inside⟩ := hm.starts found h0 (bytecode f found)
  rcases outside with negative | past
  · exact absurd positive (Int32.not_lt.mpr negative)
  · exact absurd inside (Nat.not_lt.mpr past)

theorem builtin?_of_executable (h : m.executable number = .ok .bytecode) {f : FunctionRecord}
    (found : m.function? number = some f) : f.builtin? = none := by
  simp only [executable, Machine.resolve, if_neg (Machine.executable_bytecode h), found,
    Except.map] at h
  cases hb : f.builtin? with
  | none => rfl
  | some n =>
    rw [hb] at h
    cases h

theorem builtin?_of_callee (h : m.callee number = .ok .bytecode) {f : FunctionRecord}
    (found : m.function? number = some f) : f.builtin? = none := by
  simp only [callee, Machine.resolve, if_neg (Machine.callee_bytecode h), found, Bind.bind,
    Except.bind] at h
  cases hb : f.builtin? with
  | none => rfl
  | some n =>
    rw [hb] at h
    cases h

/-- The place of a call: function 0 for the host, or a statement to whose function the call returns. -/
def Calling (m : Module) (place : Frame) : Prop :=
  place.function = 0 ∨
    m.code.Owns place.function place.statement ∧ m.code.Holds place.function (place.statement + 1)

/-- Where a turn goes on is in the body of the function that is then the current one. -/
def Leads (m : Module) (control : CallState) : Turn → Prop
  | .go next => m.code.Holds control.function next
  | .builtin _ next =>
    m.Calling ⟨control.statement, control.function⟩ ∧ next = control.statement + 1
  | .returned | .fault _ => True

end Module

theorem CallState.Above.function_ne {m : Module} {size : Nat} {base c : CallState}
    (h : Above m size base c) (hd : base.calls.depth < c.calls.depth) : c.function ≠ 0 := by
  cases h with
  | base => exact absurd hd (Nat.lt_irrefl _)
  | entered statement below enterable => exact enterable.nonzero

namespace Machine
variable {v : Machine} {m : Module} {number : Nat}

theorem enter_first {first : Nat} (h : (v.enter m number).1 = .ok first) :
    ∃ f, m.function? number = some f ∧ first = f.entry.toInt.toNat := by
  simp only [enter] at h
  cases ha : v.admission m number with
  | error e =>
    rw [ha] at h
    cases h
  | ok f =>
    rw [ha] at h
    simp only [act_eq] at h
    cases hp : (passArguments v.settings.deadbeefLocals f v.argc v.store).1 with
    | error e =>
      rw [hp] at h
      cases h
    | ok _ =>
      rw [hp] at h
      cases h
      exact ⟨f, (admission_ok ha).1, rfl⟩

/-- A function is entered at a statement of its body. -/
theorem enter_calling (hm : m.Sealed) (h0 : number ≠ 0)
    (bytecode : ∀ f, m.function? number = some f → f.builtin? = none)
    (here : m.Calling ⟨v.control.statement, v.control.function⟩)
    (frames : ∀ f ∈ v.control.calls.frames, m.Calling f) :
    (∀ f ∈ (v.enter m number).2.control.calls.frames, m.Calling f) ∧
      ∀ first, (v.enter m number).1 = .ok first →
        m.code.Holds (v.enter m number).2.control.function first := by
  rcases enter_cases v m h0 with ⟨e, he⟩ | ⟨f, enterable, -, -, result, store, -, he⟩
  · rw [he]
    exact ⟨frames, nofun⟩
  · constructor
    · rw [he]
      intro f hf
      rcases List.mem_cons.mp hf with rfl | hf
      · exact here
      · exact frames f hf
    · intro first entered
      obtain ⟨g, found, rfl⟩ := enter_first entered
      have starts := (hm.starts found h0 (bytecode g found)).1
      rw [he]
      exact hm.code.entries starts

theorem call_calling (hm : m.Sealed) {index : Nat}
    (owned : m.code.Owns v.control.function index)
    (holds : m.code.Holds v.control.function (index + 1)) (statement : v.control.statement = index)
    (frames : ∀ f ∈ v.control.calls.frames, m.Calling f) :
    (∀ f ∈ (v.call m index number).2.control.calls.frames, m.Calling f) ∧
      m.Leads (v.call m index number).2.control (v.call m index number).1 := by
  have here : m.Calling ⟨v.control.statement, v.control.function⟩ := by
    rw [statement]
    exact .inr ⟨owned, holds⟩
  simp only [call]
  cases hc : m.callee number with
  | error e => exact ⟨frames, trivial⟩
  | ok callee =>
    cases callee with
    | builtin n => exact ⟨frames, here, by rw [statement]⟩
    | bytecode =>
      have entered := enter_calling hm (callee_bytecode hc)
        (fun f found => Module.builtin?_of_callee hc found) here frames
      dsimp only
      cases he : v.enter m number with
      | mk result u =>
        rw [he] at entered
        cases result with
        | error e => exact ⟨entered.1, trivial⟩
        | ok first => exact ⟨entered.1, entered.2 first rfl⟩

/-- A return from above the depth at which a run ends goes on after a call in the run. -/
theorem return_calling {frame : RunFrame} {base : CallState} {index : Nat} {value : UInt16}
    (hf : frame.program = m)
    (above : base.Above m v.store.memory.words.size v.control)
    (depth : base.calls.depth = frame.exitDepth) (deeper : frame.exitDepth < v.depth)
    (frames : ∀ f ∈ v.control.calls.frames, m.Calling f) :
    (∀ f ∈ (v.follow frame index (.ret value)).2.control.calls.frames, m.Calling f) ∧
      m.Leads (v.follow frame index (.ret value)).2.control (v.follow frame index (.ret value)).1 := by
  subst hf
  rw [follow_ret]
  obtain ⟨store, alike, ⟨e, he, -⟩ | ⟨-, he⟩⟩ := returnFrom_cases frame.program value v <;> rw [he]
  · exact ⟨frames, trivial⟩
  · have above' : base.Above frame.program (v.setStore store).store.memory.words.size
        (v.setStore store).control := by
      rw [setStore_store, alike.size]
      exact above
    obtain ⟨c, f, ws, below, -, ⟨statement, saved⟩, -, -, hl⟩ :=
      leave_above above' (by rw [depth]; exact deeper)
    have pushed : v.control.calls.frames = ⟨c.statement, c.function⟩ :: c.calls.frames := by
      rw [show v.control = _ from saved]
      rfl
    rw [pushed] at frames
    obtain ⟨here, frames'⟩ := List.forall_mem_cons.mp frames
    rw [hl]
    dsimp only
    split
    · exact ⟨frames', trivial⟩
    · rename_i elsewhere
      refine ⟨frames', ?_⟩
      -- The function returned to is one of the run, and not the one the host calls from.
      have inside : base.calls.depth < c.calls.depth := by
        refine Nat.lt_of_le_of_ne below.depth_le ?_
        rw [depth]
        exact Ne.symm elsewhere
      exact (here.resolve_left (below.function_ne inside)).2

/-- A turn that starts in the body of the current function leads to the body of the one that is then
current, and makes its calls where they return to the body. -/
theorem turn_leads (hm : m.Sealed) {frame : RunFrame} {base : CallState} (executed : Nat) {next : Int}
    (hf : frame.program = m)
    (above : base.Above m v.store.memory.words.size v.control)
    (depth : base.calls.depth = frame.exitDepth) (deeper : frame.exitDepth < v.depth)
    (holds : m.code.Holds v.control.function next)
    (frames : ∀ f ∈ v.control.calls.frames, m.Calling f) :
    (∀ f ∈ (v.turn frame executed next).2.control.calls.frames, m.Calling f) ∧
      m.Leads (v.turn frame executed next).2.control (v.turn frame executed next).1 := by
  subst hf
  rcases turn_cases frame executed next v with ⟨kind, ht, -⟩ |
    ⟨st, result, store, fetched, hs, ht⟩ <;> rw [ht]
  · exact ⟨frames, trivial⟩
  · have moved := ran_control v frame.program next.toNat store
    have same : (v.ran frame.program next.toNat store).control.function = v.control.function := by
      rw [moved]
    have frames' : ∀ f ∈ (v.ran frame.program next.toNat store).control.calls.frames,
        frame.program.Calling f := by
      rw [moved]
      exact frames
    cases result with
    | error e => exact ⟨frames', trivial⟩
    | ok control =>
      obtain ⟨op, opcode, sends⟩ := hm.code.keeps holds.owned fetched
      have keeps := sends control
        ((step_sends v.settings frame.program next.toNat v.store opcode).1 control
          (congrArg Prod.fst hs))
      cases control with
      | next =>
        rw [← same] at keeps
        exact ⟨frames', keeps⟩
      | jump target =>
        rw [← same] at keeps
        exact ⟨frames', keeps⟩
      | call function argc =>
        exact call_calling hm (v := { v.ran frame.program next.toNat store with argc })
          (by rw [moved]; exact holds.owned) (by rw [moved]; exact keeps) (by rw [moved]) frames'
      | ret value =>
        have size := (step_alike hs).size
        refine return_calling rfl ?_ depth ?_ frames'
        · rw [ran_store, size, moved]
          exact above.move (by rw [depth]; exact deeper) next.toNat
        · rw [ran_depth]
          exact deeper

end Machine

namespace Module

/-- The calls are above those from which a run was started, which stood at a call themselves and for
which something else holds. -/
def Launched (m : Module) (size exitDepth : Nat) (P : CallState → Prop) (c : CallState) : Prop :=
  ∃ base : CallState, base.calls.depth = exitDepth ∧ base.Above m size c ∧
    m.Calling ⟨base.statement, base.function⟩ ∧ P base

/-- A run that waits for a builtin goes on after the call of that builtin. -/
def Resumes (m : Module) (size : Nat) : List Waiting → CallState → Prop
  | [], _ => True
  | .run frame _ next :: waiting, c =>
    next = c.statement + 1 ∧ m.Launched size frame.exitDepth (m.Resumes size waiting) c
  | .program _ :: waiting, c | .execution _ :: waiting, c => m.Resumes size waiting c

end Module

/-- Whether the host acts, or a builtin does. -/
def Task.Hosted : Task → Prop
  | perform _ | execute _ | answer _ => True
  | fetch .. | unwind .. => False

/-- What is done next is done at a statement of the current function. -/
def Task.Placed (m : Module) (size : Nat) (c : CallState) (waiting : List Waiting) : Task → Prop
  | fetch frame _ next =>
    m.code.Holds c.function next ∧ m.Launched size frame.exitDepth (m.Resumes size waiting) c
  | unwind _ exitDepth _ => m.Launched size exitDepth (m.Resumes size waiting) c
  | perform _ | execute _ | answer _ =>
    m.Calling ⟨c.statement, c.function⟩ ∧ m.Resumes size waiting c

namespace Configuration
variable {v : Machine} {c c' : Configuration} {s : Session} {waiting : List Waiting}

/-- Every call in progress returns to the body that it was made from, and so does what is done next. -/
structure Placed (v : Machine) (c : Configuration) : Prop where
  frames : ∀ f ∈ c.machine.control.calls.frames, v.program.Calling f
  task : c.task.Placed v.program v.store.memory.words.size c.machine.control c.waiting

theorem execute_placed (hm : v.program.Sealed) {number : Nat} (atop : s.Atop v)
    (placed : Placed v ⟨s, .execute number, waiting⟩) : Placed v (execute number s waiting) := by
  obtain ⟨frames, here, resumes⟩ := placed
  rw [← atop.program] at hm
  have entered {result : Except Fault Nat} {u : Machine}
      (hx : s.machine.program.executable number = .ok .bytecode)
      (he : (s.onMachine Machine.beginRun).machine.enter s.machine.program number = (result, u)) :
      (∀ f ∈ u.control.calls.frames, v.program.Calling f) ∧
        v.program.Launched v.store.memory.words.size s.machine.depth
          (v.program.Resumes v.store.memory.words.size waiting) u.control ∧
        ∀ first, result = .ok first → v.program.code.Holds u.control.function first := by
    have h0 := Machine.executable_bytecode hx
    have calling := Machine.enter_calling (v := (s.onMachine Machine.beginRun).machine) hm h0
      (fun f found => Module.builtin?_of_executable hx found)
      (by rw [atop.program]; exact here) (by rw [atop.program]; exact frames)
    have above :=
      (Machine.enter_above (s.onMachine Machine.beginRun).machine s.machine.program h0).2.1
    rw [he] at calling above
    rw [atop.program] at calling above
    have size : (s.onMachine Machine.beginRun).machine.store.memory.words.size =
        v.store.memory.words.size := atop.size
    rw [size] at above
    exact ⟨calling.1, ⟨s.machine.control, rfl, above, here, resumes⟩, calling.2⟩
  rcases execute_cases number s waiting with ⟨first, u, hx, he, h⟩ | ⟨n, body, -, -, h⟩ |
    ⟨kind, h, -⟩ | ⟨kind, u, hx, he, h⟩ <;> rw [h]
  · obtain ⟨frames', launched, holds⟩ := entered hx he
    exact ⟨frames', holds first rfl, launched⟩
  · exact ⟨frames, here, resumes⟩
  · exact ⟨frames, here, resumes⟩
  · obtain ⟨frames', launched, -⟩ := entered hx he
    exact ⟨frames', launched⟩

theorem fetch_placed (hm : v.program.Sealed) {frame : RunFrame} {executed : Nat} {next : Int}
    (orderly : Orderly v ⟨s, .fetch frame executed next, waiting⟩)
    (placed : Placed v ⟨s, .fetch frame executed next, waiting⟩) :
    Placed v (fetch frame executed next s waiting) := by
  obtain ⟨frames, holds, base, depth, above, calling, resumes⟩ := placed
  obtain ⟨program, deeper, -⟩ := orderly.fits
  have size : s.machine.store.memory.words.size = v.store.memory.words.size := orderly.atop.size
  rw [← size, ← program] at above
  have leads := Machine.turn_leads hm executed program (by rw [← program]; exact above)
    depth deeper holds frames
  have launched := (Machine.turn_above executed next above (Nat.le_of_eq depth) deeper).1
  rw [size, program] at launched
  cases ht : s.machine.turn frame executed next with
  | mk turn u =>
    rw [ht] at leads launched
    obtain ⟨frames', leads⟩ := leads
    have launched' : v.program.Launched v.store.memory.words.size frame.exitDepth
        (v.program.Resumes v.store.memory.words.size waiting) u.control :=
      ⟨base, depth, launched, calling, resumes⟩
    rcases fetch_cases ht waiting with ⟨next', rfl, h⟩ | ⟨n, next', body, rfl, -, h⟩ | ⟨-, h⟩ |
      ⟨kind, -, h⟩ <;> rw [h]
    · exact ⟨frames', leads, launched'⟩
    · exact ⟨frames', leads.1, leads.2, launched'⟩
    · exact ⟨frames', launched'⟩
    · exact ⟨frames', launched'⟩

theorem unwind_placed {m : Module} {exitDepth : Nat} {outcome : Except RuntimeFault Unit}
    (orderly : Orderly v ⟨s, .unwind m exitDepth outcome, waiting⟩)
    (placed : Placed v ⟨s, .unwind m exitDepth outcome, waiting⟩) :
    Placed v (unwind m exitDepth outcome s waiting) := by
  obtain ⟨frames, base, depth, above, calling, resumes⟩ := placed
  obtain ⟨rfl, bound, -⟩ := orderly.fits
  simp only [unwind]
  split
  · rename_i deeper
    have size : s.machine.store.memory.words.size = v.store.memory.words.size := orderly.atop.size
    rw [← size] at above
    obtain ⟨c, f, ws, below, -, ⟨statement, saved⟩, -, -, hl⟩ :=
      Machine.leave_above above (by rw [depth]; exact deeper)
    rw [size] at below
    have pushed : s.machine.control.calls.frames =
        ⟨c.statement, c.function⟩ :: c.calls.frames := by
      rw [saved]
      rfl
    have frames' : ∀ f ∈ c.calls.frames, v.program.Calling f := by
      intro f hf
      refine frames f ?_
      rw [show (machine _).control.calls.frames = _ from pushed]
      exact List.mem_cons_of_mem _ hf
    have left : (s.machine.leave v.program).2.control = c := by rw [hl]
    refine ⟨?_, base, depth, ?_, calling, resumes⟩
    · rw [show (machine _).control = _ from left]
      exact frames'
    · rw [show (machine _).control = _ from left]
      exact below
  · rename_i reached
    have same : s.machine.control = base :=
      above.eq_base (by rw [depth]; exact Nat.not_lt.mp reached)
    rw [← same] at calling resumes
    exact ⟨frames, calling, resumes⟩

theorem conclude_placed {outcome : Except Fault Unit}
    (frames : ∀ f ∈ s.machine.control.calls.frames, v.program.Calling f)
    (calling : v.program.Calling ⟨s.machine.control.statement, s.machine.control.function⟩)
    (resumes : v.program.Resumes v.store.memory.words.size waiting s.machine.control)
    (awaited : v.Awaited s.machine.depth waiting) (hn : conclude outcome s waiting = some c') :
    Placed v c' := by
  rcases conclude_cases hn with ⟨frame, executed, next, rest, rfl, -, rfl⟩ |
    ⟨frame, executed, next, rest, kind, rfl, -, rfl⟩ | ⟨m, rest, rfl, rfl⟩
  · obtain ⟨rfl, base, depth, above, launched⟩ := resumes
    have inside : base.calls.depth < s.machine.control.calls.depth := by
      rw [depth]
      exact awaited.2.1
    exact ⟨frames, (calling.resolve_left (above.function_ne inside)).2, base, depth, above, launched⟩
  · exact ⟨frames, resumes.2⟩
  · exact ⟨frames, calling, resumes⟩

theorem perform_placed {p : HostProgram} (orderly : Orderly v ⟨s, .perform p, waiting⟩)
    (placed : Placed v ⟨s, .perform p, waiting⟩) (hn : perform s waiting p = some c') :
    Placed v c' := by
  obtain ⟨frames, calling, resumes⟩ := placed
  obtain ⟨steady, awaited⟩ := orderly.fits
  rcases perform_cases hn with ⟨outcome, -, hc⟩ | ⟨number, k, -, rfl⟩ | ⟨s', p', rfl, -, kept⟩
  · exact conclude_placed frames calling resumes awaited hc
  · exact ⟨frames, calling, resumes⟩
  · have same : s'.machine.control = s.machine.control := kept steady
    refine ⟨?_, ?_⟩
    · rw [show (machine _).control = _ from same]
      exact frames
    · rw [show (machine _).control = _ from same]
      exact ⟨calling, resumes⟩

/-- A step from a placed configuration leads to one. -/
theorem Placed.next (hm : v.program.Sealed) (orderly : c.Orderly v) (placed : c.Placed v)
    (hn : c.next = some c') : c'.Placed v := by
  obtain ⟨s, task, waiting⟩ := c
  cases task with
  | execute number =>
    cases hn
    exact execute_placed hm orderly.atop placed
  | fetch frame executed next =>
    cases hn
    exact fetch_placed hm orderly placed
  | unwind m exitDepth outcome =>
    cases hn
    exact unwind_placed orderly placed
  | perform p => exact perform_placed orderly placed hn
  | answer outcome =>
    obtain ⟨k, rest, rfl, rfl⟩ := answer_cases rfl hn
    exact ⟨placed.frames, placed.task⟩

/-- The machine while a statement is executed: from its fetch on, and as long as the builtin runs that
it has called. -/
inductive Executing (c : Configuration) : Machine → Prop where
  | fetched {frame : RunFrame} {executed : Nat} {next : Int}
      (task : c.task = .fetch frame executed next) (runs : runsStatement c) :
      Executing c (c.machine.record frame.program next.toNat)
  | calling {frame : RunFrame} {executed : Nat} {next : Int} (hosted : c.task.Hosted)
      (waits : .run frame executed next ∈ c.waiting) : Executing c c.machine

end Configuration

theorem Module.Resumes.function_ne {v : Machine} {frame : RunFrame} {executed : Nat} {next : Int}
    {waiting : List Waiting} {c : CallState} (h : v.program.Resumes v.store.memory.words.size waiting c)
    (awaited : v.Awaited c.calls.depth waiting) (waits : .run frame executed next ∈ waiting) :
    c.function ≠ 0 := by
  induction waiting with
  | nil => cases waits
  | cons w waiting ih =>
    cases w with
    | program k => exact ih h awaited.2 ((List.mem_cons.mp waits).resolve_left nofun)
    | execution m => exact ih h awaited ((List.mem_cons.mp waits).resolve_left nofun)
    | run frame executed next =>
      obtain ⟨-, base, depth, above, -⟩ := h
      exact above.function_ne (by rw [depth]; exact awaited.2.1)

/-- The faults of a run that has come to what is not a statement. -/
def Fault.Astray : Fault → Prop
  | .invalidStatement _ | .unknownOpcode _ => True
  | _ => False

theorem Fault.OfEffect.not_astray {e : Fault} (h : e.OfEffect) : ¬ e.Astray := by
  cases e <;> first | exact h.elim | exact id

theorem Fault.OfCall.not_astray {e : Fault} (h : e.OfCall) : ¬ e.Astray := by
  cases e <;> first | exact h.elim | exact id

theorem Fault.OfLeaving.not_astray {e : Fault} (h : e.OfLeaving) : ¬ e.Astray := by
  cases e <;> first | exact h.elim | exact id

/-- A turn in the body of a function of a sealed module finds a statement, and one with an opcode. -/
theorem Machine.FaultsWith.not_astray {v : Machine} {frame : RunFrame} {executed number : Nat}
    {next : Int} {e : Fault} (hm : frame.program.Sealed) (holds : frame.program.code.Holds number next)
    (h : v.FaultsWith frame executed next e) : ¬ e.Astray := by
  cases h with
  | limit reached => exact id
  | outside h =>
    rcases h with negative | past
    · exact absurd holds.nonnegative (Int.not_le.mpr negative)
    · exact absurd holds.inside (Nat.not_lt.mpr past)
  | effect fetched h =>
    obtain ⟨op, opcode, -⟩ := hm.code.keeps holds.owned fetched
    exact ((step_sends _ _ _ _ opcode).2 e h).effect.not_astray
  | call h => exact h.not_astray
  | misplaced fetched called bytecode h =>
    exact absurd h (hm.not_misplaced (callee_bytecode bytecode)
      fun f found => Module.builtin?_of_callee bytecode found)
  | returning address => exact id
  | leaving u size control h => exact (leave_origin h).not_astray

namespace Configuration
variable {c : Configuration} {s : Session} {number n : Nat}

theorem placed_after (hm : s.machine.program.Sealed) (hs : s.Idle)
    (hc : after n (start number s) = some c) : c.Orderly s.machine ∧ c.Placed s.machine := by
  have started : (start number s).Placed s.machine := by
    have idle : (start number s).machine.control = _ := hs.control
    refine ⟨?_, ?_, trivial⟩
    · rw [idle]
      exact fun f hf => absurd hf List.not_mem_nil
    · rw [idle]
      exact .inl rfl
  have orderly : (start number s).Orderly s.machine := ⟨.refl hs.steady, rfl⟩
  exact after_invariant (P := fun c => c.Orderly s.machine ∧ c.Placed s.machine) ⟨orderly, started⟩
    (fun d d' h hn => ⟨(h.1.follows hn).orderly, h.2.next hm h.1 hn⟩) hc

theorem Placed.executing {v u : Machine} (orderly : c.Orderly v) (placed : c.Placed v)
    (h : c.Executing u) : u.program.functionAt? u.control.statement = some u.control.function := by
  obtain ⟨s, task, waiting⟩ := c
  obtain ⟨-, placed⟩ := placed
  have program : s.machine.program = v.program := orderly.atop.program
  cases h with
  | @fetched frame executed next task runs =>
    cases task
    rw [Machine.record_control, Machine.record_program, program]
    exact Module.functionAt?_of_owns placed.1.owned
  | calling hosted waits =>
    have here : v.program.Calling ⟨s.machine.control.statement, s.machine.control.function⟩ ∧
        v.program.Resumes v.store.memory.words.size waiting s.machine.control ∧
        v.Awaited s.machine.depth waiting := by
      have fits := orderly.fits
      cases task with
      | perform p => exact ⟨placed.1, placed.2, fits.2⟩
      | execute number => exact ⟨placed.1, placed.2, fits⟩
      | answer outcome => exact ⟨placed.1, placed.2, fits⟩
      | fetch frame executed next => exact hosted.elim
      | unwind m exitDepth outcome => exact hosted.elim
    obtain ⟨calling, resumes, awaited⟩ := here
    have owned := (calling.resolve_left (resumes.function_ne awaited waits)).1
    rw [program]
    exact Module.functionAt?_of_owns owned

theorem Placed.not_astray {v : Machine} (hm : v.program.Sealed) (orderly : c.Orderly v)
    (placed : c.Placed v) {kind : Fault} (astray : kind.Astray) (raised : c.Raises kind) :
    c.task = .perform (.fail kind) := by
  obtain ⟨s, task, waiting⟩ := c
  have program : s.machine.program = v.program := orderly.atop.program
  cases raised with
  | builtin task => exact task
  | @executing number kind task h =>
    rcases h with h | ⟨bytecode, h⟩
    · exact absurd astray h.not_astray
    · have bytecode : s.machine.program.executable number = .ok .bytecode := bytecode
      rw [← program] at hm
      exact absurd h (hm.not_misplaced (Machine.executable_bytecode bytecode)
        fun f found => Module.builtin?_of_executable bytecode found)
  | @fetching frame executed next kind task h =>
    cases task
    have same : frame.program = v.program := orderly.fits.1
    rw [← same] at hm
    have holds := placed.task.1
    rw [← same] at holds
    exact absurd astray (h.not_astray hm holds)

/-- In a sealed module, every statement that is executed is one of the current function, and what is
not a statement is reported only by a builtin. -/
theorem sealed_control_flow (hm : s.machine.program.Sealed) (hs : s.Idle)
    (hc : after n (start number s) = some c) :
    (∀ u, c.Executing u → u.program.functionAt? u.control.statement = some u.control.function) ∧
      ∀ kind : Fault, kind.Astray → c.task.fault? = some kind →
        ∃ k < n, ∃ d, after k (start number s) = some d ∧ d.task = .perform (.fail kind) := by
  obtain ⟨orderly, placed⟩ := placed_after hm hs hc
  refine ⟨fun u h => placed.executing orderly h, ?_⟩
  intro kind astray faulted
  obtain ⟨k, earlier, d, hd, raised⟩ := fault_raised hc faulted
  obtain ⟨orderly', placed'⟩ := placed_after hm hs hd
  exact ⟨k, earlier, d, hd, placed'.not_astray hm orderly' astray raised⟩

end Configuration
end GameBytecode
