import GameBytecode.Proofs.RunInvariant

/-!
Runs on which no other module is put in place. Whatever the builtins could do besides, such a run is
the run of a session whose builtins cannot reload: a request for another module that is refused is as
good as a look at the machine.
-/
namespace GameBytecode

/-- The program with each reload replaced by a look at whether it would be refused. Where it would not
be, the program ends. -/
def HostProgram.steadied : HostProgram → HostProgram
  | done => done
  | fail e => fail e
  | inspect k => inspect fun v roster => (k v roster).steadied
  | write address words k => write address words fun result => (k result).steadied
  | makeString bytes k => makeString bytes fun r => (k r).steadied
  | clearStrings k => clearStrings k.steadied
  | setArgc argc k => setArgc argc k.steadied
  | setTracing on k => setTracing on k.steadied
  | emit line k => emit line k.steadied
  | reload image k => inspect fun v _ =>
    match v.reload image with
    | .ok _ => done
    | .error e => (k (.error e)).steadied
  | register number name body k => register number name body.steadied k.steadied
  | .execute function k => .execute function fun outcome => (k outcome).steadied

theorem HostProgram.steadied_steady (p : HostProgram) : p.steadied.Steady := by
  induction p with
  | done => trivial
  | fail e => trivial
  | inspect k ih => exact ih
  | write address words k ih => exact ih
  | makeString bytes k ih => exact ih
  | clearStrings k ih => exact ih
  | setArgc argc k ih => exact ih
  | setTracing on k ih => exact ih
  | emit line k ih => exact ih
  | reload image k ih =>
    simp only [steadied, Steady]
    intro v roster
    split
    · trivial
    · exact ih _
  | register number name body k ihBody ih => exact ⟨ihBody, ih⟩
  | execute function k ih => exact ih

def Builtin.steadied (b : Builtin) : Builtin := { b with body := b.body.steadied }

namespace Session

def steadied (s : Session) : Session := { s with builtins := s.builtins.map Builtin.steadied }

theorem steadied_steady (s : Session) : s.steadied.Steady := by
  intro b hb
  obtain ⟨c, -, rfl⟩ := List.mem_map.mp hb
  exact c.body.steadied_steady

theorem steadied_roster (s : Session) : s.steadied.roster = s.roster := by
  simp only [roster, steadied, List.map_map]
  rfl

theorem steadied_builtin? (s : Session) (number : Nat) :
    s.steadied.builtin? number = (s.builtin? number).map HostProgram.steadied := by
  simp only [builtin?, steadied, List.find?_map, Option.map_map]
  rfl

theorem steadied_register (s : Session) (b : Builtin) :
    s.steadied.register b.steadied = (s.register b).steadied := by
  simp only [register, steadied, List.filter_map, List.map_append, List.map_cons]
  rfl

end Session

def Waiting.steadied : Waiting → Waiting
  | program k => program fun outcome => (k outcome).steadied
  | run frame executed next => run frame executed next
  | execution m => execution m

def Task.steadied : Task → Task
  | perform p => perform p.steadied
  | task => task

namespace Configuration

def steadied (c : Configuration) : Configuration :=
  ⟨c.session.steadied, c.task.steadied, c.waiting.map Waiting.steadied⟩

/-- The step from a configuration puts another module in place of the present one. -/
def reloads (c : Configuration) : Bool :=
  match c.task with
  | .perform (.reload image _) => (c.machine.reload image).toOption.isSome
  | _ => false

variable {s : Session} {waiting : List Waiting}

theorem execute_steadied (number : Nat) (s : Session) (waiting : List Waiting) :
    execute number s.steadied (waiting.map Waiting.steadied) =
      (execute number s waiting).steadied := by
  simp only [execute]
  rw [show s.steadied.machine = s.machine from rfl]
  cases s.machine.program.executable number with
  | error e => rfl
  | ok callee =>
    cases callee with
    | builtin n =>
      dsimp only
      rw [show s.steadied.onMachine Machine.beginRun = (s.onMachine Machine.beginRun).steadied from rfl,
        Session.steadied_builtin?]
      cases (s.onMachine Machine.beginRun).builtin? n.toNat <;> rfl
    | bytecode =>
      dsimp only
      rw [show (s.steadied.onMachine Machine.beginRun).machine = (s.onMachine Machine.beginRun).machine
        from rfl]
      cases (s.onMachine Machine.beginRun).machine.enter s.machine.program number with
      | mk result u => cases result <;> rfl

theorem fetch_steadied (frame : RunFrame) (executed : Nat) (next : Int) (s : Session)
    (waiting : List Waiting) :
    fetch frame executed next s.steadied (waiting.map Waiting.steadied) =
      (fetch frame executed next s waiting).steadied := by
  simp only [fetch]
  rw [show s.steadied.machine = s.machine from rfl]
  cases s.machine.turn frame executed next with
  | mk turn u =>
    cases turn with
    | builtin n next' =>
      dsimp only
      rw [show ({ s.steadied with machine := u } : Session) = ({ s with machine := u } : Session).steadied
        from rfl, Session.steadied_builtin?]
      cases ({ s with machine := u } : Session).builtin? n.toNat <;> rfl
    | _ => rfl

theorem unwind_steadied (m : Module) (exitDepth : Nat) (outcome : Except RuntimeFault Unit)
    (s : Session) (waiting : List Waiting) :
    unwind m exitDepth outcome s.steadied (waiting.map Waiting.steadied) =
      (unwind m exitDepth outcome s waiting).steadied := by
  simp only [unwind]
  rw [show s.steadied.machine = s.machine from rfl]
  split <;> rfl

theorem conclude_steadied (outcome : Except Fault Unit) (s : Session) (waiting : List Waiting) :
    conclude outcome s.steadied (waiting.map Waiting.steadied) =
      (conclude outcome s waiting).map steadied := by
  cases waiting with
  | nil => rfl
  | cons w waiting =>
    cases w with
    | run frame executed next => cases outcome <;> rfl
    | _ => rfl

theorem perform_steadied {p : HostProgram}
    (kept : ∀ image k, p = .reload image k → (s.machine.reload image).toOption.isSome = false) :
    perform s.steadied (waiting.map Waiting.steadied) p.steadied =
      (perform s waiting p).map steadied := by
  cases p with
  | done => exact conclude_steadied (.ok ()) s waiting
  | fail e => exact conclude_steadied (.error e) s waiting
  | inspect k =>
    simp only [HostProgram.steadied, perform]
    rw [Session.steadied_roster]
    rfl
  | reload image k =>
    have refused := kept image k rfl
    simp only [HostProgram.steadied, perform]
    rw [show s.steadied.machine = s.machine from rfl]
    cases hr : s.machine.reload image with
    | ok machine =>
      rw [hr] at refused
      cases refused
    | error e => rfl
  | register number name body k =>
    simp only [HostProgram.steadied, perform]
    rw [show (⟨number, name, body.steadied⟩ : Builtin) = Builtin.steadied ⟨number, name, body⟩ from rfl,
      Session.steadied_register]
    rfl
  | _ => rfl

theorem resume_steadied (k : Except RuntimeFault Unit → HostProgram)
    (outcome : Except RuntimeFault Unit) :
    resume (fun outcome => (k outcome).steadied) outcome = (resume k outcome).steadied := by
  cases outcome with
  | ok _ => rfl
  | error e =>
    by_cases fatal : e.kind.isFatal
    · simp only [resume, if_pos fatal, HostProgram.steadied]
    · simp only [resume, if_neg fatal]

/-- A step that does not reload is a step of a session whose builtins cannot reload. -/
theorem next_steadied {c : Configuration} (kept : c.reloads = false) :
    c.steadied.next = c.next.map steadied := by
  obtain ⟨s, task, waiting⟩ := c
  cases task with
  | execute number => exact congrArg some (execute_steadied number s waiting)
  | fetch frame executed next => exact congrArg some (fetch_steadied frame executed next s waiting)
  | unwind m exitDepth outcome =>
    exact congrArg some (unwind_steadied m exitDepth outcome s waiting)
  | answer outcome =>
    cases waiting with
    | nil => rfl
    | cons w waiting =>
      cases w with
      | program k =>
        change some _ = some _
        rw [resume_steadied]
        rfl
      | run => rfl
      | execution => rfl
  | perform p =>
    apply perform_steadied
    rintro image k rfl
    exact kept

theorem after_steadied {c : Configuration} {n : Nat}
    (kept : ∀ k < n, ∀ d, after k c = some d → d.reloads = false) :
    after n c.steadied = (after n c).map steadied := by
  induction n with
  | zero => rfl
  | succ n ih =>
    rw [after_succ, after_succ, ih fun k hk => kept k (Nat.lt_succ_of_lt hk)]
    cases hd : after n c with
    | none => rfl
    | some d => exact next_steadied (kept n (Nat.lt_succ_self n) d hd)

end Configuration
end GameBytecode
