import GameBytecode.Proofs.StatementLedger

/-!
Runs on which nobody looks at the trace. Where builtins neither look at it, nor switch it, nor put
another module in place, a run is the same with the trace and without it, step by step.
-/
namespace GameBytecode

def Machine.silent (v : Machine) : Machine :=
  v.withLedger { v.ledger with trace := .empty 0, tracing := false }

theorem Machine.silent_aside : Machine.Aside Machine.silent :=
  ⟨fun _ _ => rfl, fun _ _ => rfl, fun _ _ => rfl⟩

theorem Machine.silent_record (v : Machine) (m : Module) (index : Nat) :
    (v.record m index).silent = v.silent.record m index := by
  obtain ⟨own, capacity, heapBytes, program, store, control, argc, profile, trace, tracing,
    console⟩ := v
  cases tracing <;> rfl

theorem Machine.silent_turn (v : Machine) (frame : RunFrame) (executed : Nat) (next : Int) :
    v.silent.turn frame executed next =
      ((v.turn frame executed next).1, (v.turn frame executed next).2.silent) := by
  -- A statement does the same on both machines, so nothing has to be refused.
  have same (m : Module) (index : Nat) (st : Statement) (store : Store) :
      (∃ e, (step v.settings m index st store).1 = .error e ∧ False) ∨
        step v.silent.settings m index st store = step v.settings m index st store := .inr rfl
  rcases silent_aside.turn v (fun _ => rfl) v.silent_record same frame executed next with
    ⟨e, -, refused⟩ | turned
  · exact refused.elim
  · exact turned

/-- A host program that neither looks at the trace nor switches it, and does not reload. -/
def HostProgram.Untraced : HostProgram → Prop
  | done | fail _ => True
  | inspect k => ∀ v roster, k v.silent roster = k v roster ∧ (k v roster).Untraced
  | write _ _ k => ∀ result, (k result).Untraced
  | makeString _ k => ∀ r, (k r).Untraced
  | clearStrings k | setArgc _ k | emit _ k => k.Untraced
  | setTracing _ _ | reload _ _ => False
  | register _ _ body k => body.Untraced ∧ k.Untraced
  | .execute _ k => ∀ outcome, (k outcome).Untraced

/-- No builtin looks at the trace, switches it or reloads. -/
def Session.Untraced (s : Session) : Prop := ∀ b ∈ s.builtins, b.body.Untraced

def Waiting.Untraced : Waiting → Prop
  | program k => ∀ outcome, (k outcome).Untraced
  | _ => True

def Task.Untraced : Task → Prop
  | perform p => p.Untraced
  | _ => True

namespace Session

def silent (s : Session) : Session := s.onMachine Machine.silent

theorem Untraced.builtin {s : Session} (h : s.Untraced) {number : Nat} {body : HostProgram}
    (hb : s.builtin? number = some body) : body.Untraced := by
  obtain ⟨b, mem, rfl⟩ := mem_of_builtin? hb
  exact h b mem

theorem Untraced.register {s : Session} (h : s.Untraced) {b : Builtin} (hb : b.body.Untraced) :
    (s.register b).Untraced := by
  intro c hc
  rcases mem_register hc with rfl | hc
  · exact hb
  · exact h c hc

end Session

namespace Configuration

/-- Nothing that is done or waits looks at the trace, switches it or reloads. -/
structure Untraced (c : Configuration) : Prop where
  session : c.session.Untraced
  task : c.task.Untraced
  waiting : ∀ w ∈ c.waiting, w.Untraced

def silent (c : Configuration) : Configuration := { c with session := c.session.silent }

variable {c c' : Configuration} {s : Session} {waiting : List Waiting}

theorem start_untraced (h : s.Untraced) (number : Nat) : (start number s).Untraced :=
  ⟨h, trivial, fun _ hw => absurd hw List.not_mem_nil⟩

theorem conclude_untraced {p : HostProgram} {outcome : Except Fault Unit}
    (h : Untraced ⟨s, .perform p, waiting⟩) (hn : conclude outcome s waiting = some c') :
    c'.Untraced := by
  obtain ⟨builtins, -, waits⟩ := h
  rcases conclude_cases hn with ⟨frame, executed, next, rest, rfl, -, rfl⟩ |
    ⟨frame, executed, next, rest, kind, rfl, -, rfl⟩ | ⟨m, rest, rfl, rfl⟩ <;>
    exact ⟨builtins, trivial, (List.forall_mem_cons.mp waits).2⟩

theorem Untraced.next (h : c.Untraced) (hn : c.next = some c') : c'.Untraced := by
  obtain ⟨s, task, waiting⟩ := c
  have ⟨builtins, program, waits⟩ := h
  cases task with
  | execute number =>
    cases hn
    rcases execute_cases number s waiting with ⟨first, v, -, -, he⟩ | ⟨n, body, -, hb, he⟩ |
      ⟨kind, he, -⟩ | ⟨kind, v, -, -, he⟩ <;> rw [he]
    · exact ⟨builtins, trivial, waits⟩
    · exact ⟨builtins, builtins.builtin hb, List.forall_mem_cons.mpr ⟨trivial, waits⟩⟩
    · exact ⟨builtins, trivial, waits⟩
    · exact ⟨builtins, trivial, waits⟩
  | fetch frame executed next =>
    cases hn
    rcases fetch_cases (s := s) rfl waiting with ⟨next', -, hf⟩ | ⟨n, next', body, -, hb, hf⟩ |
      ⟨-, hf⟩ | ⟨kind, -, hf⟩ <;> rw [hf]
    · exact ⟨builtins, trivial, waits⟩
    · exact ⟨builtins, builtins.builtin hb, List.forall_mem_cons.mpr ⟨trivial, waits⟩⟩
    · exact ⟨builtins, trivial, waits⟩
    · exact ⟨builtins, trivial, waits⟩
  | unwind m exitDepth outcome =>
    cases hn
    simp only [unwind]
    split <;> exact ⟨builtins, trivial, waits⟩
  | answer outcome =>
    obtain ⟨k, rest, hw, rfl⟩ := answer_cases rfl hn
    dsimp only at hw
    subst hw
    obtain ⟨told, others⟩ := List.forall_mem_cons.mp waits
    exact ⟨builtins, resume_keeps (told outcome) fun _ => trivial, others⟩
  | perform p =>
    cases p with
    | done => exact conclude_untraced h (show conclude (.ok ()) s waiting = some c' from hn)
    | fail e => exact conclude_untraced h (show conclude (.error e) s waiting = some c' from hn)
    | inspect k =>
      cases hn
      exact ⟨builtins, (program s.machine s.roster).2, waits⟩
    | write address words k =>
      cases hn
      exact ⟨builtins, program _, waits⟩
    | makeString bytes k =>
      cases hn
      exact ⟨builtins, program _, waits⟩
    | setTracing on k => exact program.elim
    | reload image k => exact program.elim
    | register number name body k =>
      cases hn
      exact ⟨builtins.register program.1, program.2, waits⟩
    | execute number k =>
      cases hn
      exact ⟨builtins, trivial, List.forall_mem_cons.mpr ⟨program, waits⟩⟩
    | _ =>
      cases hn
      exact ⟨builtins, program, waits⟩

theorem execute_silent (number : Nat) (s : Session) (waiting : List Waiting) :
    execute number s.silent waiting = (execute number s waiting).silent := by
  simp only [execute]
  rw [show s.silent.machine.program = s.machine.program from rfl,
    show s.silent.onMachine Machine.beginRun = (s.onMachine Machine.beginRun).silent from rfl]
  generalize s.onMachine Machine.beginRun = r
  cases s.machine.program.executable number with
  | error e => rfl
  | ok callee =>
    cases callee with
    | builtin n =>
      dsimp only
      rw [show r.silent.builtin? n.toNat = r.builtin? n.toNat from rfl]
      cases r.builtin? n.toNat <;> rfl
    | bytecode =>
      dsimp only
      rw [show r.silent.machine = r.machine.silent from rfl,
        Machine.silent_aside.enter r.machine _ fun _ => rfl]
      cases r.machine.enter s.machine.program number with
      | mk result u => cases result <;> rfl

theorem fetch_silent (frame : RunFrame) (executed : Nat) (next : Int) (s : Session)
    (waiting : List Waiting) :
    fetch frame executed next s.silent waiting = (fetch frame executed next s waiting).silent := by
  simp only [fetch]
  rw [show s.silent.machine = s.machine.silent from rfl, Machine.silent_turn]
  cases s.machine.turn frame executed next with
  | mk turn u =>
    cases turn with
    | builtin n next' =>
      dsimp only
      rw [show ({ s.silent with machine := u.silent } : Session) = ({ s with machine := u } : Session).silent
          from rfl,
        show ({ s with machine := u } : Session).silent.builtin? n.toNat =
          ({ s with machine := u } : Session).builtin? n.toNat from rfl]
      cases ({ s with machine := u } : Session).builtin? n.toNat <;> rfl
    | _ => rfl

theorem unwind_silent (m : Module) (exitDepth : Nat) (outcome : Except RuntimeFault Unit)
    (s : Session) (waiting : List Waiting) :
    unwind m exitDepth outcome s.silent waiting =
      (unwind m exitDepth outcome s waiting).silent := by
  simp only [unwind]
  rw [show s.silent.machine.depth = s.machine.depth from rfl]
  split
  · have left := congrArg Prod.snd (Machine.silent_aside.leave s.machine m)
    exact congrArg (fun v => (⟨⟨v, s.builtins⟩, .unwind m exitDepth outcome, waiting⟩ : Configuration))
      left
  · rfl

theorem conclude_silent (outcome : Except Fault Unit) (s : Session) (waiting : List Waiting) :
    conclude outcome s.silent waiting = (conclude outcome s waiting).map silent := by
  cases waiting with
  | nil => rfl
  | cons w waiting =>
    cases w with
    | run frame executed next => cases outcome <;> rfl
    | _ => rfl

theorem perform_silent {p : HostProgram} (hp : p.Untraced) (s : Session) (waiting : List Waiting) :
    perform s.silent waiting p = (perform s waiting p).map silent := by
  cases p with
  | done => exact conclude_silent (.ok ()) s waiting
  | fail e => exact conclude_silent (.error e) s waiting
  | inspect k =>
    have same := (hp s.machine s.roster).1
    exact congrArg (fun p => some (⟨s.silent, .perform p, waiting⟩ : Configuration)) same
  | setTracing on k => exact hp.elim
  | reload image k => exact hp.elim
  | _ => rfl

/-- A step is the same without a trace. -/
theorem next_silent (h : c.Untraced) : c.silent.next = c.next.map silent := by
  obtain ⟨s, task, waiting⟩ := c
  cases task with
  | execute number => exact congrArg some (execute_silent number s waiting)
  | fetch frame executed next => exact congrArg some (fetch_silent frame executed next s waiting)
  | unwind m exitDepth outcome => exact congrArg some (unwind_silent m exitDepth outcome s waiting)
  | answer outcome =>
    cases waiting with
    | nil => rfl
    | cons w waiting => cases w <;> rfl
  | perform p => exact perform_silent h.task s waiting

theorem after_silent (h : c.Untraced) (n : Nat) : after n c.silent = (after n c).map silent := by
  induction n with
  | zero => rfl
  | succ n ih =>
    rw [after_succ, after_succ, ih]
    cases hd : after n c with
    | none => rfl
    | some d => exact next_silent (after_invariant h (fun _ _ untraced => untraced.next) hd)

end Configuration
end GameBytecode
