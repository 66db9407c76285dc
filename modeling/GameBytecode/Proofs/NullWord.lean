import GameBytecode.Proofs.EntryPaths
import GameBytecode.Proofs.LocalsRoundTrip
import GameBytecode.Proofs.StatementFrame
import GameBytecode.Proofs.WithoutReload

/-!
The word of memory that is to read as zero. Nothing protects it, so that it can be written like any
other. What a run does besides cannot make it anything but zero: a return writes behind it, and leaving
a function puts the zero back that entering it has saved.
-/
namespace GameBytecode

namespace Memory
variable {memory memory' : Memory}

/-- What the null word reads as. -/
def nullWord (memory : Memory) : Word := memory.words.getD Address.null 0

theorem nullWord_eq (memory : Memory) : memory.nullWord = (memory.words[Address.null]?).getD 0 :=
  Array.getD_eq_getD_getElem? ..

theorem nullWord_congr (same : memory'.words[Address.null]? = memory.words[Address.null]?) :
    memory'.nullWord = memory.nullWord := by
  rw [nullWord_eq, nullWord_eq, same]

end Memory

namespace Action
variable {α β : Type} {low : Int} {P : α → Prop} {Q : β → Prop}

/-- Whether it fails or not, the action leaves the words before an address as they are; its value has a
property. -/
def Spares (low : Int) (a : Action α) (P : α → Prop) : Prop :=
  ∀ st : Store, (∀ w : Nat, w < low → (a st).2.memory.words[w]? = st.memory.words[w]?) ∧
    ∀ x, (a st).1 = .ok x → P x

theorem Spares.pure {x : α} (h : P x) : Spares low (Pure.pure x : Action α) P :=
  fun _ => ⟨fun _ _ => rfl, fun _ same => by cases same; exact h⟩

theorem Spares.bind {a : Action α} {f : α → Action β} (ha : Spares low a P)
    (hf : ∀ x, P x → Spares low (f x) Q) : Spares low (a >>= f) Q := by
  intro st
  obtain ⟨kept, value⟩ := ha st
  change (∀ w : Nat, w < low → (ExceptT.bindCont f (a st).1 (a st).2).2.memory.words[w]? =
    st.memory.words[w]?) ∧ ∀ y, (ExceptT.bindCont f (a st).1 (a st).2).1 = .ok y → Q y
  cases hr : (a st).1 with
  | error e => exact ⟨kept, fun y same => by cases same⟩
  | ok x =>
    obtain ⟨kept', value'⟩ := hf x (value x hr) (a st).2
    exact ⟨fun w before => (kept' w before).trans (kept w before), value'⟩

theorem put_elsewhere {address : Int} {ws : List Word} {w : Nat}
    (elsewhere : 0 ≤ address → address ≤ w → address + ws.length ≤ w) (st : Store) :
    (put address ws st).2.memory.words[w]? = st.memory.words[w]? := by
  obtain ⟨memory, strings⟩ := st
  simp only [put]
  cases hr : memory.resolve address ws.length with
  | error e => rfl
  | ok i =>
    obtain ⟨positive, rfl, inside⟩ := Memory.resolve_ok hr
    exact (Memory.getElem?_setWords _ _ _ _ inside).trans (if_neg (by omega))

theorem put_spares {address : Int} (h : low ≤ address) (ws : List Word) :
    Spares low (put address ws) fun _ => True :=
  fun st => ⟨fun _ before => put_elsewhere (by omega) st, fun _ _ => trivial⟩

theorem copy_spares {target : Int} (h : low ≤ target) (source : Int) (count : Nat) :
    Spares low (copy source target count) fun _ => True :=
  .bind (P := fun _ => True) (fun _ => ⟨fun _ _ => rfl, fun _ _ => trivial⟩)
    fun ws _ => put_spares h ws

end Action

namespace Machine
variable {low : Int}

theorem passFixed_spares {target : Int} (h : low ≤ target) (argument : Nat) (sizes : List Nat) :
    Action.Spares low (passFixed target argument sizes) (low ≤ ·) := by
  induction sizes generalizing target argument with
  | nil => exact .pure h
  | cons width rest ih => exact .bind (Action.copy_spares h _ _) fun _ _ => ih (by omega) _

theorem passFurther_spares {target : Int} (h : low ≤ target) (f : FunctionRecord) (argc : Nat) :
    Action.Spares low (passFurther f argc target) fun _ => True :=
  .bind (Action.put_spares h _) fun _ _ => .bind (Action.put_spares (by omega) _) fun _ _ =>
    Action.copy_spares (by omega) _ _

theorem passArguments_spares (poison : Bool) (f : FunctionRecord) (argc : Nat) :
    Action.Spares f.start.toNat (passArguments poison f argc) fun _ => True := by
  have passed : Action.Spares (f.start.toNat : Int) (do
      let target ← passFixed f.start.toNat 0 f.fixedSizes
      if f.isVariadic then passFurther f argc target : Action Unit) fun _ => True := by
    refine .bind (passFixed_spares (Int.le_refl _) 0 f.fixedSizes) fun target behind => ?_
    split
    · exact passFurther_spares behind f argc
    · exact .pure trivial
  unfold passArguments
  cases poison with
  | false => exact passed
  | true => exact .bind (Action.put_spares (Int.le_refl _) _) fun _ _ => passed

end Machine

/-- The words saved for a function begin with a zero if they are to go back to the start of memory. -/
def FunctionRecord.ZeroFirst (f : FunctionRecord) (ws : List Word) : Prop :=
  f.start.toNat = Address.null → ws.headD 0 = 0

/-- A control state reached from a base by entering functions, with a zero saved wherever the null word
was. -/
inductive CallState.Zeroed (m : Module) (size : Nat) (base : CallState) : CallState → Prop where
  | base : Zeroed m size base base
  | entered {c : CallState} {number : Nat} {f : FunctionRecord} {ws : List Word} (statement : Nat)
      (below : Zeroed m size base c) (enterable : m.Enterable size number f)
      (length : ws.length = f.locals.toNat) (zero : f.ZeroFirst ws) :
      Zeroed m size base { c.save number ws with statement }

theorem CallState.Zeroed.move {m : Module} {size : Nat} {base c : CallState}
    (h : Zeroed m size base c) (hd : base.calls.depth < c.calls.depth) (statement : Nat) :
    Zeroed m size base { c with statement } := by
  cases h with
  | base => omega
  | entered _ below enterable length zero => exact .entered statement below enterable length zero

theorem Memory.region_zeroFirst {memory : Memory} {f : FunctionRecord}
    (inside : f.start.toNat + f.locals.toNat ≤ memory.words.size) (zero : memory.nullWord = 0) :
    f.ZeroFirst (memory.region f) := by
  intro start
  rw [List.headD_eq_head?_getD, List.head?_eq_getElem?]
  by_cases empty : f.locals.toNat = 0
  · have none : (memory.region f).length = 0 := (length_region inside).trans empty
    rw [List.getElem?_eq_none (Nat.le_of_eq none)]
    rfl
  · rw [getElem?_region 0 inside (Nat.pos_of_ne_zero empty), start, Nat.add_zero, ← nullWord_eq, zero]

/-- Words that begin with a zero, put back where they were saved, leave the null word zero. -/
theorem Memory.nullWord_setWords {memory : Memory} {f : FunctionRecord} {ws : List Word}
    (inside : f.start.toNat + ws.length ≤ memory.words.size) (first : f.ZeroFirst ws)
    (zero : memory.nullWord = 0) :
    (⟨setWords memory.words f.start.toNat ws⟩ : Memory).nullWord = 0 := by
  rw [nullWord_eq, getElem?_setWords _ _ _ _ inside]
  split
  · rename_i within
    have start : f.start.toNat = Address.null := Nat.le_zero.mp within.1
    have head := first start
    rw [List.headD_eq_head?_getD, List.head?_eq_getElem?] at head
    rwa [start, Nat.sub_self]
  · rw [← nullWord_eq, zero]

namespace Machine
variable {m : Module} {base : CallState} {v v' : Machine}

/-- The null word is zero, and leaving the functions above a base keeps it so. -/
structure Settled (m : Module) (base : CallState) (v : Machine) : Prop where
  null : v.store.memory.nullWord = 0
  zeroed : base.Zeroed m v.store.memory.words.size v.control

theorem call_machine {index number : Nat} (callee : m.callee number = .ok .bytecode) :
    (v.call m index number).2 = (v.enter m number).2 := by
  simp only [call, callee]
  cases v.enter m number with
  | mk result u => cases result <;> rfl

namespace Settled

theorem of_same (h : v.Settled m base) (memory : v'.store.memory = v.store.memory)
    (control : v'.control = v.control) : v'.Settled m base :=
  ⟨by rw [memory]; exact h.null, by rw [memory, control]; exact h.zeroed⟩

/-- Entering a function saves a zero. What it writes can reach the null word only where the region of
the function begins with it. -/
theorem enter {number : Nat} (h : v.Settled m base) (nonzero : number ≠ 0)
    (reached : ∀ f, v.admission m number = .ok f → f.start.toNat = Address.null →
      (v.enter m number).2.store.memory.nullWord = 0) :
    (v.enter m number).2.Settled m base := by
  have null : (v.enter m number).2.store.memory.nullWord = 0 := by
    cases admitted : v.admission m number with
    | error e => simp only [Machine.enter, admitted, h.null]
    | ok f =>
      by_cases start : f.start.toNat = Address.null
      · exact reached f admitted start
      · have kept := (passArguments_spares v.settings.deadbeefLocals f v.argc v.store).1 Address.null
          (Int.ofNat_lt.mpr (Nat.pos_of_ne_zero start))
        simp only [Machine.enter, admitted, act_eq]
        exact (Memory.nullWord_congr kept).trans h.null
  refine ⟨null, ?_⟩
  rcases enter_cases v m nonzero with ⟨e, he⟩ | ⟨f, enterable, -, -, result, store, alike, he⟩
  · rw [he]
    exact h.zeroed
  · rw [he]
    dsimp only
    rw [alike.size]
    exact .entered _ h.zeroed enterable (Memory.length_region enterable.inside)
      (Memory.region_zeroFirst enterable.inside h.null)

theorem leave (h : v.Settled m base) (hd : base.calls.depth < v.depth) :
    (v.leave m).2.Settled m base := by
  obtain ⟨null, zeroed⟩ := h
  generalize hc : v.control = control at zeroed
  cases zeroed with
  | base =>
    unfold depth at hd
    rw [hc] at hd
    exact absurd hd (Nat.lt_irrefl _)
  | entered statement below enterable length zero =>
    rw [leave_of_save hc enterable length]
    refine ⟨Memory.nullWord_setWords (by rw [length]; exact enterable.inside) zero null, ?_⟩
    dsimp only
    rw [Memory.size_setWords]
    exact below

/-- The value of a return goes to words behind the null word. -/
theorem returnFrom (h : v.Settled m base) (hd : base.calls.depth < v.depth) (value : UInt16) :
    (v.returnFrom m value).2.Settled m base := by
  have kept := (Action.copy_spares (Int.le_refl Address.result) value.toNat 3 v.store).1
    Address.null (by decide)
  have size := (Action.copy_alike value.toNat Address.result 3 v.store).size
  have copied : (v.setStore (Action.copy value.toNat Address.result 3 v.store).2).Settled m base := by
    refine ⟨(Memory.nullWord_congr kept).trans h.null, ?_⟩
    rw [setStore_store, size]
    exact h.zeroed
  unfold Machine.returnFrom
  rw [act_eq]
  cases (Action.copy value.toNat Address.result 3 v.store).1 with
  | error e => exact copied
  | ok _ => exact copied.leave hd

theorem call {index number : Nat} (h : v.Settled m base)
    (reached : m.callee number = .ok .bytecode → ∀ f, v.admission m number = .ok f →
      f.start.toNat = Address.null → (v.call m index number).2.store.memory.nullWord = 0) :
    (v.call m index number).2.Settled m base := by
  cases callee : m.callee number with
  | error e =>
    simp only [Machine.call, callee]
    exact h
  | ok invoked =>
    cases invoked with
    | builtin n =>
      simp only [Machine.call, callee]
      exact h
    | bytecode =>
      have entered := reached callee
      rw [call_machine callee] at entered ⊢
      exact h.enter (callee_bytecode callee) entered

/-- A turn of a run: only a statement that writes to the null word, or calls a function whose region
begins with it, can make it anything else. -/
theorem turn {frame : RunFrame} {executed : Nat} {next : Int} (h : v.Settled frame.program base)
    (hd : base.calls.depth < v.depth)
    (written : ∀ st, frame.program.statements[next.toNat]? = some st →
      ∀ x ∈ st.writes v.settings frame.program next.toNat v.store, x.Touches st Address.null →
      (v.turn frame executed next).2.store.memory.nullWord = 0)
    (entered : ∀ number w f, v.Calls frame executed next number w →
      frame.program.callee number = .ok .bytecode → w.admission frame.program number = .ok f →
      f.start.toNat = Address.null → (v.turn frame executed next).2.store.memory.nullWord = 0) :
    (v.turn frame executed next).2.Settled frame.program base := by
  by_cases reached : frame.budget.any (· ≤ executed)
  · simp only [Machine.turn, if_pos reached]
    exact h
  by_cases negative : next < 0
  · simp only [Machine.turn, if_neg reached, if_pos negative]
    exact h
  rcases turn_cases frame executed next v with ⟨kind, ht, -⟩ | ⟨st, result, store, fetched, stepped, ht⟩
  · rw [ht]
    exact h
  have moved := ran_control v frame.program next.toNat store
  have settled (null : store.memory.nullWord = 0) :
      (v.ran frame.program next.toNat store).Settled frame.program base := by
    refine ⟨null, ?_⟩
    rw [moved, ran_store, (step_alike stepped).size]
    exact h.zeroed.move hd _
  have direct (same : (v.turn frame executed next).2 = v.ran frame.program next.toNat store) :
      (v.turn frame executed next).2.Settled frame.program base := by
    rw [same]
    apply settled
    by_cases touched : ∃ x ∈ st.writes v.settings frame.program next.toNat v.store,
        x.Touches st Address.null
    · obtain ⟨x, hx, aimed⟩ := touched
      have null := written st fetched x hx aimed
      rwa [same] at null
    · have kept : (step v.settings frame.program next.toNat st v.store).2.memory.words[Address.null]? =
          v.store.memory.words[Address.null]? :=
        step_unwritten fun x hx aimed => touched ⟨x, hx, aimed⟩
      rw [stepped] at kept
      exact (Memory.nullWord_congr kept).trans h.null
  cases result with
  | error e => exact direct (by rw [ht])
  | ok control =>
    cases control with
    | next => exact direct (by rw [ht]; rfl)
    | jump target => exact direct (by rw [ht]; rfl)
    | call function argc =>
      cases step_call stepped
      have calls : v.Calls frame executed next function.toNat
          { v.record frame.program next.toNat with argc } :=
        ⟨reached, negative, st, function, argc, fetched, congrArg Prod.fst stepped, rfl, rfl⟩
      have called := calls.turn_eq
      have counted : { v.record frame.program next.toNat with argc }.Settled frame.program base :=
        (settled h.null).of_same (congrArg Store.memory (record_store ..)) rfl
      rw [called] at entered ⊢
      exact counted.call fun callee f admitted start => entered _ _ f calls callee admitted start
    | ret value =>
      obtain ⟨rfl, -, -⟩ := step_ret stepped
      rw [ht]
      dsimp only
      rw [follow_ret_machine]
      exact (settled h.null).returnFrom (by rw [ran_depth]; exact hd) value

end Settled
end Machine

/-- A request of a host program is next. -/
def Task.isRequest : Task → Bool
  | perform _ => true
  | _ => false

namespace Configuration
variable {v : Machine} {c c' : Configuration} {s : Session} {waiting : List Waiting}

/-- The step from a configuration enters a bytecode function of a module, on a machine: because it is
executed, or because a statement calls it. -/
inductive Enters (c : Configuration) : Machine → Module → Nat → Prop where
  | execution {number : Nat} (task : c.task = .execute number)
      (executable : c.machine.program.executable number = .ok .bytecode) :
      Enters c c.machine.beginRun c.machine.program number
  | call {frame : RunFrame} {executed : Nat} {next : Int} {number : Nat} {w : Machine}
      (task : c.task = .fetch frame executed next)
      (calls : c.machine.Calls frame executed next number w)
      (callee : frame.program.callee number = .ok .bytecode) : Enters c w frame.program number

/-- The step from a configuration can write to the null word: its statement has it for its destination,
or comes to it through a pointer or as a field of an entity, or it enters a function whose region begins
with it. -/
inductive ReachesNull (c : Configuration) : Prop where
  | operand {frame : RunFrame} {executed : Nat} {next : Int} {st : Statement} {op : Opcode}
      (task : c.task = .fetch frame executed next)
      (fetched : frame.program.statements[next.toNat]? = some st)
      (opcode : Opcode.ofCode? st.op = some op) (direct : op.isDirect)
      (named : (op.destination st).Touches st Address.null)
  | pointer {frame : RunFrame} {executed : Nat} {next : Int} {st : Statement} {op : Opcode}
      {x : Access} (task : c.task = .fetch frame executed next)
      (fetched : frame.program.statements[next.toNat]? = some st)
      (opcode : Opcode.ofCode? st.op = some op) (indirect : op.isDirect = false)
      (written : x ∈ st.writes c.machine.settings frame.program next.toNat c.machine.store)
      (aimed : x.Touches st Address.null)
  | region {u : Machine} {m : Module} {number : Nat} {f : FunctionRecord}
      (enters : c.Enters u m number) (admitted : u.admission m number = .ok f)
      (start : f.start.toNat = Address.null)

/-- A host program asks for words to be written from the null word on. -/
def HostReachesNull (c : Configuration) : Prop :=
  ∃ words k, words ≠ [] ∧ c.task = .perform (.write Address.null words k)

theorem quiet_of_isRequest (h : c.task.isRequest = false) : c.reloads = false ∧ ¬ c.HostReachesNull := by
  obtain ⟨s, task, waiting⟩ := c
  cases task with
  | perform p => cases h
  | _ =>
    refine ⟨rfl, ?_⟩
    rintro ⟨words, k, -, asked⟩
    cases asked

theorem reachesNull_of_written {frame : RunFrame} {executed : Nat} {next : Int} {st : Statement}
    {x : Access} (task : c.task = .fetch frame executed next)
    (fetched : frame.program.statements[next.toNat]? = some st)
    (written : x ∈ st.writes c.machine.settings frame.program next.toNat c.machine.store)
    (aimed : x.Touches st Address.null) : c.ReachesNull := by
  cases opcode : Opcode.ofCode? st.op with
  | none =>
    unfold Statement.writes at written
    rw [opcode] at written
    exact absurd written List.not_mem_nil
  | some op =>
    cases direct : op.isDirect with
    | false => exact .pointer task fetched opcode direct written aimed
    | true =>
      rw [writes_destination opcode direct x written] at aimed
      exact .operand task fetched opcode direct aimed

theorem put_nullWord {address : Int} {words : List Word} (st : Store)
    (elsewhere : ¬ (words ≠ [] ∧ address = Address.null)) :
    (Action.put address words st).2.memory.nullWord = st.memory.nullWord := by
  apply Memory.nullWord_congr
  apply Action.put_elsewhere
  intro positive before
  have start : address = Address.null := Int.le_antisymm before positive
  have none : words = [] := Classical.not_not.mp fun some => elsewhere ⟨some, start⟩
  rw [start, none]
  exact Int.le_refl _

theorem conclude_settled {outcome : Except Fault Unit} {m : Module} {base : CallState}
    (h : s.machine.Settled m base) (hn : conclude outcome s waiting = some c') :
    c'.machine.Settled m base := by
  rcases conclude_cases hn with ⟨frame, executed, next, rest, -, -, rfl⟩ |
    ⟨frame, executed, next, rest, kind, -, -, rfl⟩ | ⟨m', rest, -, rfl⟩
  · exact h
  · exact h
  · exact h.of_same rfl rfl

theorem perform_settled {p : HostProgram} {m : Module} {base : CallState}
    (h : s.machine.Settled m base) (apart : ¬ (⟨s, .perform p, waiting⟩ : Configuration).HostReachesNull)
    (kept : (⟨s, .perform p, waiting⟩ : Configuration).reloads = false)
    (hn : perform s waiting p = some c') : c'.machine.Settled m base := by
  cases p with
  | done => exact conclude_settled h (show conclude (.ok ()) s waiting = some c' from hn)
  | fail e => exact conclude_settled h (show conclude (.error e) s waiting = some c' from hn)
  | write address words k =>
    have null : (Action.put address words s.machine.store).2.memory.nullWord =
        s.machine.store.memory.nullWord :=
      put_nullWord _ fun here => apart ⟨words, k, here.1, by rw [here.2]⟩
    have size := (Action.put_alike address words s.machine.store).size
    have placed : (s.machine.act (Action.put address words)).2.Settled m base := by
      rw [Machine.act_eq]
      refine ⟨null.trans h.null, ?_⟩
      rw [Machine.setStore_store, size]
      exact h.zeroed
    cases hn
    exact placed
  | reload image k =>
    simp only [reloads] at kept
    simp only [perform] at hn
    split at hn
    · rename_i loaded
      rw [machine, loaded] at kept
      cases kept
    · cases hn
      exact h
  | _ =>
    cases hn
    exact h.of_same rfl rfl

/-- A step keeps the null word zero, and what leaving functions puts back there, unless it can write to
it. -/
theorem next_settled (orderly : c.steadied.Orderly v) (h : c.machine.Settled v.program v.control)
    (apart : ¬ c.HostReachesNull) (kept : c.reloads = false) (hn : c.next = some c')
    (reached : c.ReachesNull → c'.machine.store.memory.nullWord = 0) :
    c'.machine.Settled v.program v.control := by
  obtain ⟨s, task, waiting⟩ := c
  obtain ⟨atop, fits⟩ := orderly
  have program : s.machine.program = v.program := atop.program
  cases task with
  | execute number =>
    cases hn
    have begun : (s.onMachine Machine.beginRun).machine.Settled v.program v.control :=
      h.of_same rfl rfl
    have entered (hx : s.machine.program.executable number = .ok .bytecode)
        (same : (execute number s waiting).machine =
          ((s.onMachine Machine.beginRun).machine.enter s.machine.program number).2) :
        (execute number s waiting).machine.Settled v.program v.control := by
      rw [same] at reached ⊢
      have spared (f : FunctionRecord)
          (admitted : (s.onMachine Machine.beginRun).machine.admission s.machine.program number = .ok f)
          (start : f.start.toNat = Address.null) :=
        reached (.region (.execution rfl hx) admitted start)
      rw [program] at hx spared ⊢
      exact begun.enter (Machine.executable_bytecode hx) spared
    rcases execute_cases number s waiting with ⟨first, u, hx, he, hc⟩ | ⟨n, body, -, -, hc⟩ |
      ⟨kind, hc, -⟩ | ⟨kind, u, hx, he, hc⟩
    · exact entered hx (by rw [hc, he])
    · rw [hc]
      exact begun
    · rw [hc]
      exact begun.of_same rfl rfl
    · exact entered hx (by rw [hc, he]; rfl)
  | fetch frame executed next =>
    obtain ⟨loaded, deeper, awaited⟩ := fits
    have low : v.control.calls.depth < s.machine.depth := Nat.lt_of_le_of_lt awaited.depth_le deeper
    have turned : c'.machine = (s.machine.turn frame executed next).2 := by
      rw [← Option.some.inj hn]
      exact fetch_machine ..
    rw [turned] at reached ⊢
    rw [← loaded] at h ⊢
    apply h.turn low
    · intro st fetched x written aimed
      exact reached (reachesNull_of_written rfl fetched written aimed)
    · intro number w f calls callee admitted start
      exact reached (.region (.call rfl calls callee) admitted start)
  | unwind m exitDepth outcome =>
    cases hn
    obtain ⟨rfl, -, awaited⟩ := fits
    simp only [unwind]
    split
    · rename_i deeper
      exact h.leave (Nat.lt_of_le_of_lt awaited.depth_le deeper)
    · exact h.of_same rfl rfl
  | answer outcome =>
    obtain ⟨k, rest, -, rfl⟩ := answer_cases rfl hn
    exact h
  | perform p => exact perform_settled h apart kept hn

/-- The steps of an execution, up to one at which the null word has been written. -/
theorem settled_after {number n : Nat} (zero : s.machine.store.memory.nullWord = 0)
    (kept : ∀ k < n, ∀ d, after k (start number s) = some d → d.reloads = false ∧ ¬ d.HostReachesNull)
    (spared : ∀ k < n, ∀ d d', after k (start number s) = some d → d.next = some d' → d.ReachesNull →
      d'.machine.store.memory.nullWord = 0)
    (hc : after n (start number s) = some c) :
    c.machine.Settled s.machine.program s.machine.control := by
  induction n generalizing c with
  | zero =>
    cases hc
    exact ⟨zero, .base⟩
  | succ n ih =>
    rw [after_succ] at hc
    obtain ⟨d, hd, hn⟩ := Option.bind_eq_some_iff.mp hc
    have earlier := ih (fun k hk => kept k (Nat.lt_succ_of_lt hk))
      (fun k hk => spared k (Nat.lt_succ_of_lt hk)) hd
    have steadied := after_steadied (c := start number s) fun k hk e he =>
      (kept k (Nat.lt_succ_of_lt hk) e he).1
    rw [hd] at steadied
    have orderly : d.steadied.Orderly s.steadied.machine := orderly_after s.steadied_steady steadied
    obtain ⟨reloads, apart⟩ := kept n (Nat.lt_succ_self n) d hd
    exact next_settled orderly earlier apart reloads hn (spared n (Nat.lt_succ_self n) d c hd hn)

/-- Executions on a machine whose null word is zero, as long as no module is loaded and no host program
writes to the word. It is zero after every step if and only if it is zero after those steps that can
write to it: a statement with the word for its destination, a statement that comes to it through a
pointer or in an entity, and the entering of a function whose region begins with it. -/
theorem null_word_zero_iff {number n : Nat} (zero : s.machine.store.memory.nullWord = 0)
    (kept : ∀ k < n, ∀ d, after k (start number s) = some d → d.reloads = false ∧ ¬ d.HostReachesNull) :
    (∀ k ≤ n, ∀ d, after k (start number s) = some d → d.machine.store.memory.nullWord = 0) ↔
      ∀ k < n, ∀ d d', after k (start number s) = some d → d.next = some d' → d.ReachesNull →
        d'.machine.store.memory.nullWord = 0 := by
  constructor
  · intro always k hk d d' hd hn _
    apply always (k + 1) hk
    rw [after_succ, hd]
    exact hn
  · intro spared k hk d hd
    exact (settled_after zero (fun j hj => kept j (Nat.lt_of_lt_of_le hj hk))
      (fun j hj => spared j (Nat.lt_of_lt_of_le hj hk)) hd).null

end Configuration

/-- A module whose function adds two floats and names no word for the result, which the return then
names as well. -/
def careless : Builder := .built
  [.addGlobal "x" (.float 0x3f800000), .addGlobal "y" (.float 0x40000000),
    .pushStatements [⟨(Opcode.arithmetic .float .add).code, 28, 29, 0⟩, ⟨Opcode.done.code, 0, 0, 0⟩],
    .addFunction "main" "" 1 28 [] 0]

theorem careless_loads :
    (Machine.load careless.bytes 0 0 { boundsCheck := true }).toOption.isSome := by decide +kernel

def carelessMachine : Machine :=
  (Machine.load careless.bytes 0 0 { boundsCheck := true }).toOption.get careless_loads

def carelessSession : Session := ⟨carelessMachine, []⟩

namespace Configuration

theorem careless_runs :
    carelessSession.machine.store.memory.nullWord = 0 ∧
    (∀ k < 2, (after k (start 1 carelessSession)).any (·.task.isRequest) = false) ∧
    (after 2 (start 1 carelessSession)).map (·.machine.store.memory.nullWord) = some 0x40400000 := by
  decide +kernel

/-- One of the first two steps can write to the null word, and does. -/
theorem careless_reaches : ∃ k < 2, ∃ d d', after k (start 1 carelessSession) = some d ∧
    d.next = some d' ∧ d.ReachesNull ∧ d'.machine.store.memory.nullWord ≠ 0 := by
  obtain ⟨zero, quiet, written⟩ := careless_runs
  obtain ⟨c, hc, sum⟩ := Option.map_eq_some_iff.mp written
  have kept (k : Nat) (hk : k < 2) (d : Configuration)
      (hd : after k (start 1 carelessSession) = some d) : d.reloads = false ∧ ¬ d.HostReachesNull := by
    have calm := quiet k hk
    rw [hd, Option.any_some] at calm
    exact quiet_of_isRequest calm
  apply Classical.byContradiction
  intro spared
  have null := (null_word_zero_iff zero kept).mpr (fun k hk d d' hd hn reaches => by
    apply Classical.byContradiction
    intro nonzero
    exact spared ⟨k, hk, d, d', hd, hn, reaches, nonzero⟩) 2 (Nat.le_refl 2) c hc
  rw [sum] at null
  cases null

/-- In a checked module whose null word is zero, with no builtin and no host that writes, the word is
three after two steps, and the function returns it. -/
theorem careless_nonzero :
    Machine.load careless.bytes 0 0 { boundsCheck := true } = .ok carelessMachine ∧
    Validation.check carelessMachine.program = .ok () ∧ carelessSession = ⟨carelessMachine, []⟩ ∧
    carelessMachine.store.memory.nullWord = 0 ∧
    (∃ c, after 2 (start 1 carelessSession) = some c ∧
      c.machine.store.memory.nullWord = 0x40400000) ∧
    ∃ c, after 3 (start 1 carelessSession) = some c ∧
      c.machine.store.memory.words[Address.result]? = some 0x40400000 := by
  obtain ⟨checked, zero, written, returned⟩ :
      (Validation.check carelessMachine.program).toOption = some () ∧
      carelessMachine.store.memory.nullWord = 0 ∧
      (after 2 (start 1 carelessSession)).map (·.machine.store.memory.nullWord) = some 0x40400000 ∧
      (after 3 (start 1 carelessSession)).map (·.machine.store.memory.words[Address.result]?) =
        some (some 0x40400000) := by
    decide +kernel
  exact ⟨Session.eq_ok_get careless_loads, ok_of_toOption checked, rfl, zero,
    Option.map_eq_some_iff.mp written, Option.map_eq_some_iff.mp returned⟩

end Configuration
end GameBytecode
