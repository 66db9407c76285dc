import GameBytecode.Proofs.ControlRestored
import GameBytecode.Proofs.MachineChange

/-!
Executing a function under other settings. Calls and returns look at one setting only, whether locals
are overwritten; if turns and builtins do the same under other settings, so does an execution.
-/
namespace GameBytecode

namespace Machine

def under (v : Machine) (change : Settings → Settings) : Machine :=
  { v with settings := change v.settings }

variable (v : Machine) (m : Module) {change : Settings → Settings}

@[simp] theorem under_settings : (v.under change).settings = change v.settings := rfl
@[simp] theorem under_store : (v.under change).store = v.store := rfl
@[simp] theorem under_depth : (v.under change).depth = v.depth := rfl

theorem record_under (index : Nat) :
    (v.under change).record m index = (v.record m index).under change := by
  obtain ⟨own, capacity, heapBytes, program, store, control, argc, profile, trace, tracing,
    console⟩ := v
  cases tracing <;> rfl

theorem under_aside : Aside (·.under change) :=
  ⟨fun _ _ => rfl, fun _ _ => rfl, fun _ _ => rfl⟩

theorem unwind_under (depth : Nat) :
    (v.under change).unwind m depth = (v.unwind m depth).under change :=
  under_aside.unwind v m depth

section entering
variable (h : ∀ settings, (change settings).deadbeefLocals = settings.deadbeefLocals)
include h

theorem enter_under (number : Nat) :
    (v.under change).enter m number =
      ((v.enter m number).1, (v.enter m number).2.under change) :=
  under_aside.enter v m (fun v => h v.settings) number

theorem follow_under (frame : RunFrame) (index : Nat) (control : Control) :
    (v.under change).follow frame index control =
      ((v.follow frame index control).1, (v.follow frame index control).2.under change) :=
  under_aside.follow v (fun v => h v.settings) frame index control

theorem turn_under {stops : Fault → Prop}
    (hs : ∀ (m : Module) (index : Nat) (s : Statement) (st : Store),
      (∃ e, (step v.settings m index s st).1 = .error e ∧ stops e) ∨
        step (change v.settings) m index s st = step v.settings m index s st)
    (frame : RunFrame) (executed : Nat) (next : Int) :
    (∃ e, (v.turn frame executed next).1 = .fault e ∧ stops e) ∨
      (v.under change).turn frame executed next =
        ((v.turn frame executed next).1, (v.turn frame executed next).2.under change) :=
  under_aside.turn v (fun v => h v.settings) (fun m index => (record_under v m index).symm) hs frame
    executed next

end entering

theorem reload_under (bounds : ∀ settings, (change settings).boundsCheck = settings.boundsCheck)
    (frames : ∀ settings, (change settings).maxStackDepth = settings.maxStackDepth)
    (locals : ∀ settings, (change settings).localsStackSize = settings.localsStackSize)
    (image : Text.Bytes) :
    (v.under change).reload image = (v.reload image).map (·.under change) := by
  have read : readProgram (change v.settings) image v.capacity v.heapBytes =
      readProgram v.settings image v.capacity v.heapBytes := by
    unfold readProgram
    rw [bounds]
  simp only [reload, load, idle]
  rw [show readProgram (v.under change).settings image (v.under change).capacity
    (v.under change).heapBytes = _ from read, under_settings, frames, locals]
  cases readProgram v.settings image v.capacity v.heapBytes with
  | error e => rfl
  | ok program =>
    simp only [bind, Except.bind]
    cases initialMemory program with
    | error e => rfl
    | ok memory => rfl

end Machine

/-- A host program that executes no function and does the same when settings are changed. -/
def HostProgram.Ignores (change : Settings → Settings) : HostProgram → Prop
  | done | fail _ => True
  | inspect k => ∀ v roster, k (v.under change) roster = k v roster ∧ (k v roster).Ignores change
  | write _ _ k => ∀ result, (k result).Ignores change
  | makeString _ k => ∀ r, (k r).Ignores change
  | clearStrings k | setArgc _ k | setTracing _ k | emit _ k => k.Ignores change
  | reload image k =>
    (∀ v : Machine, (v.under change).reload image = (v.reload image).map (·.under change)) ∧
      ∀ result, (k result).Ignores change
  | register _ _ body k => body.Ignores change ∧ k.Ignores change
  | .execute _ _ => False

/-- A host program that executes no function and finds the same on the machine when settings are
changed. -/
def HostProgram.Overlooks (change : Settings → Settings) : HostProgram → Prop
  | done | fail _ => True
  | inspect k => ∀ v roster, k (v.under change) roster = k v roster ∧ (k v roster).Overlooks change
  | write _ _ k => ∀ result, (k result).Overlooks change
  | makeString _ k => ∀ r, (k r).Overlooks change
  | clearStrings k | setArgc _ k | setTracing _ k | emit _ k => k.Overlooks change
  | reload _ k => ∀ result, (k result).Overlooks change
  | register _ _ body k => body.Overlooks change ∧ k.Overlooks change
  | .execute _ _ => False

variable {change : Settings → Settings}

/-- Finding the same is enough where loading an image does not look at what is changed. -/
theorem HostProgram.Overlooks.ignores {p : HostProgram} (h : p.Overlooks change)
    (hr : ∀ (v : Machine) (image : Text.Bytes),
      (v.under change).reload image = (v.reload image).map (·.under change)) :
    p.Ignores change := by
  induction p with
  | done => trivial
  | fail e => trivial
  | inspect k ih => exact fun v roster => ⟨(h v roster).1, ih v roster (h v roster).2⟩
  | write address words k ih => exact fun result => ih result (h result)
  | makeString bytes k ih => exact fun r => ih r (h r)
  | clearStrings k ih => exact ih h
  | setArgc argc k ih => exact ih h
  | setTracing on k ih => exact ih h
  | emit line k ih => exact ih h
  | reload image k ih => exact ⟨fun v => hr v image, fun result => ih result (h result)⟩
  | register number name body k body_ih ih => exact ⟨body_ih h.1, ih h.2⟩
  | execute function k ih => exact h.elim

namespace Session

/-- No builtin executes a function or depends on the settings that are changed. -/
def Ignores (change : Settings → Settings) (s : Session) : Prop :=
  ∀ b ∈ s.builtins, b.body.Ignores change

/-- No builtin executes a function or looks at the settings that are changed. -/
def Overlooks (change : Settings → Settings) (s : Session) : Prop :=
  ∀ b ∈ s.builtins, b.body.Overlooks change

theorem Overlooks.ignores {s : Session} (h : s.Overlooks change)
    (hr : ∀ (v : Machine) (image : Text.Bytes),
      (v.under change).reload image = (v.reload image).map (·.under change)) :
    s.Ignores change :=
  fun b hb => (h b hb).ignores hr

def under (s : Session) (change : Settings → Settings) : Session := s.onMachine (·.under change)

theorem Ignores.builtin {s : Session} (h : s.Ignores change) {number : Nat} {body : HostProgram}
    (hb : s.builtin? number = some body) : body.Ignores change := by
  obtain ⟨b, mem, rfl⟩ := mem_of_builtin? hb
  exact h b mem

theorem Ignores.register {s : Session} (h : s.Ignores change) {b : Builtin}
    (hb : b.body.Ignores change) : (s.register b).Ignores change := by
  intro c hc
  rcases mem_register hc with rfl | hc
  · exact hb
  · exact h c hc

end Session

/-- A host program that ignores the settings changed does the same under both. -/
theorem HostProgram.perform_under {x y : Nat → Session → Ending RuntimeFault × Session}
    {p : HostProgram} (hp : p.Ignores change) {s : Session} (hs : s.Ignores change) :
    p.perform x (s.under change) = ((p.perform y s).1, (p.perform y s).2.under change) ∧
      (p.perform y s).2.Ignores change := by
  induction p generalizing s with
  | done => exact ⟨rfl, hs⟩
  | fail e => exact ⟨rfl, hs⟩
  | inspect k ih =>
    obtain ⟨same, ignores⟩ := hp s.machine s.roster
    have performed := ih s.machine s.roster ignores hs
    rw [← same] at performed
    simp only [perform]
    rw [← same]
    exact performed
  | write address words k ih =>
    exact ih _ (hp _) (s := { s with machine := (s.machine.act (Action.put address words)).2 }) hs
  | makeString bytes k ih =>
    exact ih _ (hp _)
      (s := s.onMachine ({ · with store.strings := (s.machine.store.strings.push bytes).2 })) hs
  | clearStrings k ih =>
    exact ih hp (s := s.onMachine fun v => { v with store.strings := v.store.strings.clear }) hs
  | setArgc argc k ih => exact ih hp (s := s.onMachine ({ · with argc })) hs
  | setTracing on k ih => exact ih hp (s := s.onMachine ({ · with tracing := on })) hs
  | emit line k ih =>
    exact ih hp (s := s.onMachine fun v => { v with console := v.console.push line }) hs
  | reload image k ih =>
    simp only [perform]
    rw [show (s.under change).machine.reload image = _ from hp.1 s.machine]
    cases s.machine.reload image with
    | error e => exact ih _ (hp.2 _) hs
    | ok machine => exact ih _ (hp.2 _) (s := { s with machine }) hs
  | register number name body k _ ih => exact ih hp.2 (hs.register hp.1)
  | execute function k ih => exact hp.elim

/-- An execution is stopped by a fault of some kinds. -/
def Ending.StoppedBy (stops : Fault → Prop) : Ending RuntimeFault → Prop
  | .failed e => stops e.kind
  | _ => False

/-- The turns of a run are stopped by a fault of some kinds, or they are those of another run when
settings are changed. -/
def RunFrame.Follows (change : Settings → Settings) (stops : Fault → Prop) (frame frame' : RunFrame) :
    Prop :=
  ∀ (executed : Nat) (next : Int) (v : Machine),
    (∃ e, (v.turn frame executed next).1 = .fault e ∧ stops e) ∨
      (v.under change).turn frame' executed next =
        ((v.turn frame executed next).1, (v.turn frame executed next).2.under change)

namespace Session

theorem callBuiltin_under {x y : Nat → Session → Ending RuntimeFault × Session} (number : UInt32)
    {s : Session} (hs : s.Ignores change) :
    callBuiltin x number (s.under change) =
        ((callBuiltin y number s).1, (callBuiltin y number s).2.under change) ∧
      (callBuiltin y number s).2.Ignores change := by
  simp only [callBuiltin]
  rw [show (s.under change).builtin? number.toNat = s.builtin? number.toNat from rfl]
  cases hb : s.builtin? number.toNat with
  | none => exact ⟨rfl, hs⟩
  | some body => exact HostProgram.perform_under (hs.builtin hb) hs

theorem located_under (m : Module) (ending : Ending Fault) (s : Session) :
    located m (ending, s.under change) =
      ((located m (ending, s)).1, (located m (ending, s)).2.under change) := by
  cases ending <;> rfl

variable {stops : Fault → Prop}

/-- A run is stopped, or it is the run with the settings changed. -/
theorem interpret_under {frame frame' : RunFrame} (hf : frame.Follows change stops frame')
    (same : frame'.program = frame.program) (fuel executed : Nat) (next : Int) {s : Session}
    (hs : s.Ignores change) :
    (interpret fuel frame executed next s).1.StoppedBy stops ∨
      interpret fuel frame' executed next (s.under change) =
        ((interpret fuel frame executed next s).1,
          (interpret fuel frame executed next s).2.under change) := by
  induction fuel generalizing executed next s with
  | zero => exact .inr rfl
  | succ fuel ih =>
    obtain ⟨v, builtins⟩ := s
    have turned := hf executed next v
    rw [show under ⟨v, builtins⟩ change = ⟨v.under change, builtins⟩ from rfl]
    simp only [interpret]
    cases ht : v.turn frame executed next with
    | mk turn u =>
      rw [ht] at turned
      rcases turned with ⟨e, he, stopped⟩ | turned
      · left
        dsimp only at he
        rw [he]
        exact stopped
      · rw [turned]
        cases turn with
        | go next' => exact ih (executed + 1) next' (s := ⟨u, builtins⟩) hs
        | returned => exact .inr rfl
        | fault kind =>
          right
          dsimp only [failWith]
          rw [same]
          rfl
        | builtin n next' =>
          obtain ⟨called, ignores⟩ := callBuiltin_under (x := execute fuel) (y := execute fuel) n
            (s := ⟨u, builtins⟩) hs
          rw [show under ⟨u, builtins⟩ change = ⟨u.under change, builtins⟩ from rfl] at called
          dsimp only
          rw [called, located_under, same]
          cases hc : callBuiltin (execute fuel) n ⟨u, builtins⟩ with
          | mk ending s' =>
            rw [hc] at ignores
            cases ending with
            | finished => exact ih (executed + 1) next' ignores
            | failed e => exact .inr rfl
            | exhausted => exact .inr rfl

/-- An execution is stopped, or it is the execution with the settings changed: it ends in the same
way with the same machine but for those settings. -/
theorem execute_under (hd : ∀ settings, (change settings).deadbeefLocals = settings.deadbeefLocals)
    {s : Session}
    (hf : ∀ m exitDepth, (RunFrame.opening m exitDepth s.machine.settings).Follows change stops
      (.opening m exitDepth (change s.machine.settings)))
    (hs : s.Ignores change) (fuel number : Nat) :
    (execute fuel number s).1.StoppedBy stops ∨
      execute fuel number (s.under change) =
        ((execute fuel number s).1, (execute fuel number s).2.under change) := by
  cases fuel with
  | zero => exact .inr rfl
  | succ fuel =>
    simp only [execute]
    rw [show (s.under change).machine.program = s.machine.program from rfl,
      show (s.under change).onMachine Machine.beginRun =
        (s.onMachine Machine.beginRun).under change from rfl]
    have begun : (s.onMachine Machine.beginRun).Ignores change := hs
    have settings : (s.onMachine Machine.beginRun).machine.settings = s.machine.settings := rfl
    generalize s.onMachine Machine.beginRun = r at begun settings
    cases hx : s.machine.program.executable number with
    | error e => exact .inr rfl
    | ok callee =>
      cases callee with
      | builtin n =>
        have called := (callBuiltin_under (x := execute fuel) (y := execute fuel) n begun).1
        right
        dsimp only
        rw [called, located_under]
        rfl
      | bytecode =>
        have kin := (Machine.enter_above r.machine s.machine.program
          (Machine.executable_bytecode hx)).1
        dsimp only
        rw [show (r.under change).machine = r.machine.under change from rfl,
          Machine.enter_under _ _ hd, Machine.under_depth]
        cases he : r.machine.enter s.machine.program number with
        | mk result u =>
          rw [he] at kin
          cases result with
          | error e =>
            right
            dsimp only [failWith, onMachine]
            rw [Machine.unwind_under]
            rfl
          | ok first =>
            have same : u.settings = s.machine.settings := kin.settings.trans settings
            have follows := hf s.machine.program r.machine.depth
            rw [← same] at follows
            rcases interpret_under follows rfl fuel 0 first (s := { r with machine := u }) begun with
              stopped | ran
            · exact .inl stopped
            · right
              dsimp only [onMachine]
              rw [show ({ machine := u.under change, builtins := (r.under change).builtins } : Session) =
                  ({ machine := u, builtins := r.builtins } : Session).under change from rfl,
                Machine.under_settings, ran]
              dsimp only [under, onMachine]
              rw [Machine.unwind_under]
              rfl

end Session
end GameBytecode
