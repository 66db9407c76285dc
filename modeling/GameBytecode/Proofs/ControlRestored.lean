import GameBytecode.Image.Builder
import GameBytecode.Proofs.StatementCalls

/-!
Executing a function gives the call state back as it was, whatever the outcome. Builtins may execute
functions again; they may not put another module in place of the one that runs.
-/
namespace GameBytecode

/-- A host program that never asks for another module, and registers no builtin that does. -/
def HostProgram.Steady : HostProgram → Prop
  | done | fail _ => True
  | inspect k => ∀ v roster, (k v roster).Steady
  | write _ _ k => ∀ result, (k result).Steady
  | makeString _ k => ∀ r, (k r).Steady
  | clearStrings k | setArgc _ k | setTracing _ k | emit _ k => k.Steady
  | reload _ _ => False
  | register _ _ body k => body.Steady ∧ k.Steady
  | .execute _ k => ∀ outcome, (k outcome).Steady

namespace Session

/-- No builtin reloads. -/
def Steady (s : Session) : Prop := ∀ b ∈ s.builtins, b.body.Steady

theorem mem_of_builtin? {s : Session} {number : Nat} {body : HostProgram}
    (h : s.builtin? number = some body) : ∃ b ∈ s.builtins, b.body = body := by
  simp only [builtin?] at h
  obtain ⟨b, hf, hb⟩ := Option.map_eq_some_iff.mp h
  exact ⟨b, List.mem_of_find?_eq_some hf, hb⟩

theorem mem_register {s : Session} {b c : Builtin} (h : c ∈ (s.register b).builtins) :
    c = b ∨ c ∈ s.builtins := by
  simp only [Session.register, List.mem_append, List.mem_cons] at h
  rcases h with h | h | h
  · exact .inr (List.mem_filter.mp h).1
  · exact .inl h
  · exact .inr (List.mem_filter.mp h).1

theorem Steady.builtin {s : Session} (h : s.Steady) {number : Nat} {body : HostProgram}
    (hb : s.builtin? number = some body) : body.Steady := by
  obtain ⟨b, mem, rfl⟩ := mem_of_builtin? hb
  exact h b mem

theorem Steady.register {s : Session} (h : s.Steady) {b : Builtin} (hb : b.body.Steady) :
    (s.register b).Steady := by
  intro c hc
  rcases mem_register hc with rfl | hc
  · exact hb
  · exact h c hc

/-- A session with its calls, its module and its number of runs as they were in another. -/
structure Kept (s s' : Session) : Prop where
  steady : s'.Steady
  control : s'.machine.control = s.machine.control
  kin : s.machine.Kin s'.machine

theorem Kept.refl {s : Session} (h : s.Steady) : s.Kept s := ⟨h, rfl, .refl _⟩

theorem Kept.trans {s s' s'' : Session} (h : s.Kept s') (h' : s'.Kept s'') : s.Kept s'' :=
  ⟨h'.steady, h'.control.trans h.control, h.kin.trans h'.kin⟩

end Session

open Session

/-- A steady host program keeps the calls if the executions that it asks for do. -/
theorem HostProgram.perform_kept {execute : Nat → Session → Ending RuntimeFault × Session}
    (hx : ∀ number (s : Session), s.Steady → s.Kept (execute number s).2) {p : HostProgram}
    (hp : p.Steady) {s : Session} (hs : s.Steady) : s.Kept (p.perform execute s).2 := by
  induction p generalizing s with
  | done => exact .refl hs
  | fail e => exact .refl hs
  | inspect k ih => exact ih _ _ (hp _ _) hs
  | write address words k ih =>
    have alike := Action.put_alike address words s.machine.store
    refine Kept.trans ?_ (ih _ (hp _) (by exact hs))
    exact ⟨hs, rfl, rfl, rfl, alike⟩
  | makeString bytes k ih =>
    refine Kept.trans ?_ (ih _ (hp _) (by exact hs))
    exact ⟨hs, rfl, rfl, rfl, rfl, StringArena.runs_push ..⟩
  | clearStrings k ih =>
    refine Kept.trans ?_ (ih hp (by exact hs))
    exact ⟨hs, rfl, rfl, rfl, rfl, rfl⟩
  | setArgc argc k ih =>
    refine Kept.trans ?_ (ih hp (by exact hs))
    exact ⟨hs, rfl, rfl, rfl, .refl _⟩
  | setTracing on k ih =>
    refine Kept.trans ?_ (ih hp (by exact hs))
    exact ⟨hs, rfl, rfl, rfl, .refl _⟩
  | emit line k ih =>
    refine Kept.trans ?_ (ih hp (by exact hs))
    exact ⟨hs, rfl, rfl, rfl, .refl _⟩
  | reload image k ih => exact hp.elim
  | register number name body k _ ih =>
    have registered := hs.register (b := ⟨number, name, body⟩) hp.1
    refine Kept.trans ?_ (ih hp.2 registered)
    exact ⟨registered, rfl, .refl _⟩
  | execute function k ih =>
    have executed := hx function s hs
    simp only [perform]
    cases hr : execute function s with
    | mk ending s' =>
      rw [hr] at executed
      cases ending with
      | finished => exact executed.trans (ih _ (hp _) executed.steady)
      | failed e =>
        dsimp only
        split
        · exact executed
        · exact executed.trans (ih _ (hp _) executed.steady)
      | exhausted => exact executed

namespace Session

theorem callBuiltin_kept {execute : Nat → Session → Ending RuntimeFault × Session}
    (hx : ∀ number (s : Session), s.Steady → s.Kept (execute number s).2) (number : UInt32)
    {s : Session} (hs : s.Steady) : s.Kept (callBuiltin execute number s).2 := by
  simp only [callBuiltin]
  cases hb : s.builtin? number.toNat with
  | none => exact .refl hs
  | some body => exact HostProgram.perform_kept hx (hs.builtin hb) hs

theorem located_session (m : Module) (r : Ending Fault × Session) : (located m r).2 = r.2 := by
  obtain ⟨ending, s⟩ := r
  cases ending <;> rfl

/-- A run gives a session whose calls are those of a base or above it. -/
structure Within (frame : RunFrame) (base : CallState) (s s' : Session) : Prop where
  steady : s'.Steady
  kin : s.machine.Kin s'.machine
  above : base.Above frame.program s.machine.store.memory.words.size s'.machine.control

theorem interpret_within {fuel : Nat}
    (hx : ∀ number (s : Session), s.Steady → s.Kept (execute fuel number s).2)
    (hi : ∀ frame executed next base (s : Session), s.Steady → frame.exitDepth = base.calls.depth →
      base.Above frame.program s.machine.store.memory.words.size s.machine.control →
      base.calls.depth < s.machine.depth → Within frame base s (interpret fuel frame executed next s).2)
    {frame : RunFrame} {executed : Nat} {next : Int} {base : CallState} {s : Session}
    (hs : s.Steady) (he : frame.exitDepth = base.calls.depth)
    (hb : base.Above frame.program s.machine.store.memory.words.size s.machine.control)
    (hd : base.calls.depth < s.machine.depth) :
    Within frame base s (interpret (fuel + 1) frame executed next s).2 := by
  obtain ⟨v, builtins⟩ := s
  have kin := Machine.turn_kin frame executed next v
  obtain ⟨above, -, deeper⟩ := Machine.turn_above executed next hb (Nat.le_of_eq he.symm)
    (by rw [he]; exact hd)
  simp only [interpret]
  cases ht : v.turn frame executed next with
  | mk turn u =>
    rw [ht] at above kin deeper
    rw [he] at deeper
    have here : Within frame base ⟨v, builtins⟩ ⟨u, builtins⟩ := ⟨hs, kin, above⟩
    have size : u.store.memory.words.size = v.store.memory.words.size := kin.store.size
    cases turn with
    | go next' =>
      obtain ⟨steady', kin', above'⟩ := hi frame (executed + 1) next' base ⟨u, builtins⟩ hs he
        (by rw [size]; exact above) (deeper trivial)
      exact ⟨steady', kin.trans kin', by rw [← size]; exact above'⟩
    | builtin n next' =>
      have kept := callBuiltin_kept hx n (s := ⟨u, builtins⟩) hs
      rw [← located_session frame.program] at kept
      dsimp only
      cases hl : located frame.program (callBuiltin (execute fuel) n ⟨u, builtins⟩) with
      | mk ending s' =>
        rw [hl] at kept
        have size' : s'.machine.store.memory.words.size = v.store.memory.words.size :=
          kept.kin.store.size.trans size
        have above' : base.Above frame.program v.store.memory.words.size s'.machine.control := by
          rw [kept.control]
          exact above
        cases ending with
        | finished =>
          obtain ⟨steady'', kin'', above''⟩ := hi frame (executed + 1) next' base s' kept.steady he
            (by rw [size']; exact above')
            (by unfold Machine.depth; rw [kept.control]; exact deeper trivial)
          exact ⟨steady'', (kin.trans kept.kin).trans kin'', by rw [← size']; exact above''⟩
        | failed e => exact ⟨kept.steady, kin.trans kept.kin, above'⟩
        | exhausted => exact ⟨kept.steady, kin.trans kept.kin, above'⟩
    | returned => exact here
    | fault kind => exact here

theorem Kept.of_run {s s' : Session} (h : (s.onMachine Machine.beginRun).Kept s') :
    s.Kept (s'.onMachine Machine.endRun) := by
  have begun : s.machine.store.strings.beginRun.runs = s.machine.store.strings.runs + 1 := by
    simp only [StringArena.beginRun]
    split <;> rfl
  have ended : s'.machine.store.strings.endRun.runs = s'.machine.store.strings.runs - 1 := by
    simp only [StringArena.endRun]
    split <;> rfl
  have runs : s'.machine.store.strings.runs = s.machine.store.strings.runs + 1 :=
    h.kin.store.runs.trans begun
  refine ⟨h.steady, h.control, h.kin.program, h.kin.settings, h.kin.store.size, ?_⟩
  rw [show (s'.onMachine Machine.endRun).machine.store.strings.runs = _ from ended, runs]
  rfl

theorem Kept.of_unwind {s s' : Session} {m : Module} (steady : s'.Steady)
    (kin : s.machine.Kin s'.machine)
    (above : s.machine.control.Above m s.machine.store.memory.words.size s'.machine.control) :
    s.Kept (s'.onMachine fun v => v.unwind m s.machine.depth) := by
  rw [← kin.store.size] at above
  obtain ⟨memory, size, hu⟩ := Machine.unwind_above above
  have unwound : (s'.onMachine fun v => v.unwind m s.machine.depth).machine =
      { s'.machine with control := s.machine.control, store.memory := memory } := hu
  refine ⟨steady, by rw [unwound], ?_⟩
  rw [unwound]
  exact ⟨kin.program, kin.settings, size.trans kin.store.size, kin.store.runs⟩

theorem execute_kept (fuel number : Nat) {s : Session} (hs : s.Steady) :
    s.Kept (execute fuel number s).2 := by
  suffices both : (∀ number (s : Session), s.Steady → s.Kept (execute fuel number s).2) ∧
      ∀ frame executed next base (s : Session), s.Steady → frame.exitDepth = base.calls.depth →
        base.Above frame.program s.machine.store.memory.words.size s.machine.control →
        base.calls.depth < s.machine.depth →
        Within frame base s (interpret fuel frame executed next s).2 from both.1 number s hs
  clear hs s number
  induction fuel with
  | zero => exact ⟨fun _ _ hs => .refl hs, fun _ _ _ _ _ hs _ hb _ => ⟨hs, .refl _, hb⟩⟩
  | succ fuel ih =>
    obtain ⟨hx, hi⟩ := ih
    refine ⟨?_, fun _ _ _ _ _ hs he hb hd => interpret_within hx hi hs he hb hd⟩
    intro number s hs
    simp only [execute]
    cases hc : s.machine.program.executable number with
    | error e => exact .of_run (.refl (s := s.onMachine Machine.beginRun) hs)
    | ok callee =>
      cases callee with
      | builtin n =>
        apply Kept.of_run
        dsimp only
        rw [located_session]
        exact callBuiltin_kept hx n hs
      | bytecode =>
        apply Kept.of_run
        have entered := Machine.enter_above (s.onMachine Machine.beginRun).machine
          s.machine.program (Machine.executable_bytecode hc)
        dsimp only
        cases he : (s.onMachine Machine.beginRun).machine.enter s.machine.program number with
        | mk result u =>
          rw [he] at entered
          obtain ⟨kin, above, deeper⟩ := entered
          cases result with
          | error e => exact .of_unwind (s := s.onMachine Machine.beginRun) hs kin above
          | ok first =>
            obtain ⟨steady, kin', above'⟩ := hi (.opening s.machine.program
              (s.onMachine Machine.beginRun).machine.depth u.settings) 0 first
              (s.onMachine Machine.beginRun).machine.control ⟨u, s.builtins⟩ hs rfl
              (by rw [kin.store.size]; exact above) (deeper first rfl)
            exact .of_unwind (s := s.onMachine Machine.beginRun) steady (kin.trans kin')
              (by rw [← kin.store.size]; exact above')

end Session

/-- A host program that may reload, but registers only builtins that do not. -/
def HostProgram.RegistersSteady : HostProgram → Prop
  | done | fail _ => True
  | inspect k => ∀ v roster, (k v roster).RegistersSteady
  | write _ _ k => ∀ result, (k result).RegistersSteady
  | makeString _ k => ∀ r, (k r).RegistersSteady
  | clearStrings k | setArgc _ k | setTracing _ k | emit _ k => k.RegistersSteady
  | reload _ k => ∀ result, (k result).RegistersSteady
  | register _ _ body k => body.Steady ∧ k.RegistersSteady
  | .execute _ k => ∀ outcome, (k outcome).RegistersSteady

namespace Session

/-- What a host can make of a session by loading a module and performing programs on it. -/
inductive Between : Session → Prop where
  | loaded {image : Text.Bytes} {capacity heapBytes : Nat} {settings : Settings} {v : Machine}
      (load : Machine.load image capacity heapBytes settings = .ok v) : Between ⟨v, []⟩
  | performed {s : Session} (fuel : Nat) (p : HostProgram) (earlier : Between s)
      (registers : p.RegistersSteady) : Between (p.perform (execute fuel) s).2

/-- No call is in progress, and no builtin reloads. -/
structure Idle (s : Session) : Prop where
  steady : s.Steady
  control : s.machine.control = Machine.idle s.machine.settings
  runs : s.machine.store.strings.runs = 0

theorem Kept.idle {s s' : Session} (h : s.Kept s') (hi : s.Idle) : s'.Idle :=
  ⟨h.steady, by rw [h.control, hi.control, h.kin.settings], h.kin.store.runs.trans hi.runs⟩

theorem load_idle {image : Text.Bytes} {capacity heapBytes : Nat} {settings : Settings}
    {v : Machine} (h : Machine.load image capacity heapBytes settings = .ok v) :
    v.control = Machine.idle v.settings ∧ v.store.strings.runs = 0 := by
  obtain ⟨-, -, same, control, runs⟩ := Machine.load_ok h
  rw [same]
  exact ⟨control, runs⟩

theorem idle_of_load {image : Text.Bytes} {capacity heapBytes : Nat} {settings : Settings}
    {v : Machine} (h : Machine.load image capacity heapBytes settings = .ok v)
    {builtins : List Builtin} (steady : ∀ b ∈ builtins, b.body.Steady) : Idle ⟨v, builtins⟩ :=
  ⟨steady, (load_idle h).1, (load_idle h).2⟩

theorem perform_idle (fuel : Nat) {p : HostProgram} (hp : p.RegistersSteady) {s : Session}
    (hs : s.Idle) : (p.perform (execute fuel) s).2.Idle := by
  induction p generalizing s with
  | done => exact hs
  | fail e => exact hs
  | inspect k ih => exact ih _ _ (hp _ _) hs
  | write address words k ih =>
    have alike := Action.put_alike address words s.machine.store
    exact ih _ (hp _) ⟨hs.steady, hs.control, alike.runs.trans hs.runs⟩
  | makeString bytes k ih =>
    exact ih _ (hp _) ⟨hs.steady, hs.control, (StringArena.runs_push ..).trans hs.runs⟩
  | clearStrings k ih => exact ih hp ⟨hs.steady, hs.control, hs.runs⟩
  | setArgc argc k ih => exact ih hp ⟨hs.steady, hs.control, hs.runs⟩
  | setTracing on k ih => exact ih hp ⟨hs.steady, hs.control, hs.runs⟩
  | emit line k ih => exact ih hp ⟨hs.steady, hs.control, hs.runs⟩
  | reload image k ih =>
    unfold HostProgram.perform Machine.reload
    cases hl : Machine.load image s.machine.capacity s.machine.heapBytes s.machine.settings with
    | error e => exact ih _ (hp _) hs
    | ok v =>
      obtain ⟨control, runs⟩ := load_idle hl
      exact ih _ (hp _) ⟨hs.steady, control, runs⟩
  | register number name body k _ ih =>
    exact ih hp.2 ⟨hs.steady.register hp.1, hs.control, hs.runs⟩
  | execute function k ih =>
    have executed := (execute_kept fuel function hs.steady).idle hs
    unfold HostProgram.perform
    cases hr : execute fuel function s with
    | mk ending s' =>
      rw [hr] at executed
      cases ending with
      | finished => exact ih _ (hp _) executed
      | failed e =>
        dsimp only
        split
        · exact executed
        · exact ih _ (hp _) executed
      | exhausted => exact executed

theorem Between.idle {s : Session} (h : s.Between) : s.Idle := by
  induction h with
  | loaded load =>
    obtain ⟨control, runs⟩ := load_idle load
    exact ⟨fun b hb => absurd hb List.not_mem_nil, control, runs⟩
  | performed fuel p earlier registers ih => exact perform_idle fuel registers ih

/-- Executing a function leaves the calls in progress, the saved words, the place and the number of
runs as they were, whatever the outcome. Between executions by a host there are none. -/
theorem execute_restores_calls :
    (∀ (fuel number : Nat) (s : Session), s.Steady →
      (execute fuel number s).2.machine.control = s.machine.control ∧
        (execute fuel number s).2.machine.store.strings.runs = s.machine.store.strings.runs) ∧
    ∀ s : Session, s.Between →
      s.machine.depth = 0 ∧ s.machine.control.saved.words = #[] ∧
        s.machine.control.function = 0 ∧ s.machine.control.statement = 0 ∧
        s.machine.store.strings.runs = 0 := by
  constructor
  · intro fuel number s hs
    have kept := execute_kept fuel number hs
    exact ⟨kept.control, kept.kin.store.runs⟩
  · intro s hs
    have idle := hs.idle
    unfold Machine.depth
    rw [idle.control]
    exact ⟨rfl, rfl, rfl, rfl, idle.runs⟩

/-- A module whose first function calls the second, which has a word of locals with it in common and
writes over that word. The first function then calls a builtin. -/
def nestedImage : Text.Bytes :=
  { Builder.empty with
    statements := #[.null,
      ⟨(Opcode.call ⟨0, by decide⟩).code, 28, 0, 0⟩, ⟨(Opcode.call ⟨0, by decide⟩).code, 29, 0, 0⟩,
      ⟨Opcode.done.code, 30, 0, 0⟩,
      ⟨(Opcode.store .float).code, 28, 30, 0⟩, ⟨Opcode.done.code, 28, 0, 0⟩]
    functions := #[.null,
      { FunctionRecord.null with entry := 1, start := 29, locals := 2 },
      { FunctionRecord.null with entry := 4, start := 30, locals := 2 },
      { FunctionRecord.null with entry := -1 }]
    globals := Builder.empty.globals ++ #[2, 3, 6, 7] : Builder }.bytes

def bareCall (function : UInt16) : Statement :=
  ⟨(Opcode.call ⟨0, by decide⟩).code, function, 0, 0⟩

theorem nestedImage_loads : (Machine.load nestedImage 0 0 {}).toOption.isSome := by decide +kernel

def nested : Session :=
  ⟨(Machine.load nestedImage 0 0 {}).toOption.get nestedImage_loads,
    [⟨1, "again", .execute 2 fun _ => .fail .nullFunction⟩]⟩

theorem nested_steady : nested.Steady := by
  intro b hb
  rw [List.mem_singleton.mp hb]
  exact fun _ => trivial

theorem eq_ok_get {ε α : Type} {r : Except ε α} (h : r.toOption.isSome) :
    r = .ok (r.toOption.get h) := by
  cases r with
  | error e => cases h
  | ok v => rfl

private theorem between_registered {v : Machine} (h : Between ⟨v, []⟩) (number : Nat)
    (name : String) {body : HostProgram} (hb : body.Steady) :
    Between ⟨v, [⟨number, name, body⟩]⟩ :=
  .performed 0 (.register number name body .done) h ⟨hb, trivial⟩

theorem nested_between : nested.Between :=
  between_registered (.loaded (eq_ok_get nestedImage_loads)) 1 "again" fun _ => trivial

theorem nested_restored :
    nested.Steady ∧ nested.Between ∧
      (execute 9 1 nested).2.machine.control = nested.machine.control ∧ nested.machine.depth = 0 :=
  ⟨nested_steady, nested_between, (execute_restores_calls.1 9 1 nested nested_steady).1,
    (execute_restores_calls.2 nested nested_between).1⟩

end Session
end GameBytecode
