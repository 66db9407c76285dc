import GameBytecode.Proofs.ControlRestored
import GameBytecode.Proofs.SettingsChange

/-!
Bounds checks only refuse. A run that checks bounds goes step by step as the run that does not, until
both end in one way or a check faults.
-/
namespace GameBytecode

/-- Whether a fault comes from checking entities, fields or jumps while running. -/
def Fault.OfBounds : Fault → Prop
  | .invalidEntityAccess _ | .invalidFieldAccess _ | .worldAssignment | .invalidJump _ => True
  | _ => False

/-- Whether a bounds check has ended an execution. -/
def Ending.Refused : Ending RuntimeFault → Prop
  | .failed e => e.kind.OfBounds
  | _ => False

/-- The settings with bounds checks off. -/
def Settings.unchecked (settings : Settings) : Settings := { settings with boundsCheck := false }

theorem Settings.unchecked_deadbeefLocals (settings : Settings) :
    settings.unchecked.deadbeefLocals = settings.deadbeefLocals := rfl

namespace Plan
variable {α β : Type}

/-- A plan that does what another one does, as far as no bounds check refuses. -/
inductive Guards : Plan α → Plan α → Prop where
  | refused {e : Fault} (h : e.OfBounds) (q : Plan α) : Guards (fail e) q
  | done (a : α) : Guards (done a) (done a)
  | fail (e : Fault) : Guards (fail e) (fail e)
  | read (place : Place) (count : Nat) {k l : List Word → Plan α} (h : ∀ ws, Guards (k ws) (l ws)) :
    Guards (read place count k) (read place count l)
  | write (place : Place) (words : List Word) {k l : Plan α} (h : Guards k l) :
    Guards (write place words k) (write place words l)
  | observe (f : StringArena → Except Fault Bool) {k l : Bool → Plan α}
    (h : ∀ answer, Guards (k answer) (l answer)) : Guards (observe f k) (observe f l)
  | concat (r s : StringRef) {k l : StringRef → Plan α} (h : ∀ joined, Guards (k joined) (l joined)) :
    Guards (concat r s k) (concat r s l)

namespace Guards

theorem refl (p : Plan α) : p.Guards p := by
  induction p with
  | done a => exact .done a
  | fail e => exact .fail e
  | read place count k ih => exact .read place count ih
  | write place words k ih => exact .write place words ih
  | observe f k ih => exact .observe f ih
  | concat r s k ih => exact .concat r s ih

theorem bind {p q : Plan α} {f g : α → Plan β} (h : p.Guards q) (hf : ∀ a, (f a).Guards (g a)) :
    (p >>= f).Guards (q >>= g) := by
  induction h with
  | refused he q => exact .refused he _
  | done a => exact hf a
  | fail e => exact .fail e
  | read place count _ ih => exact .read place count ih
  | write place words _ ih => exact .write place words ih
  | observe f _ ih => exact .observe f ih
  | concat r s _ ih => exact .concat r s ih

/-- A guarded plan is refused, or it leaves what the other leaves. -/
theorem run {p q : Plan α} (h : p.Guards q) (s : Statement) (st : Store) :
    (∃ e, (p.run s st).1 = .error e ∧ e.OfBounds) ∨ q.run s st = p.run s st := by
  induction h generalizing st with
  | refused he q => exact .inl ⟨_, rfl, he⟩
  | done a => exact .inr rfl
  | fail e => exact .inr rfl
  | read place count _ ih =>
    simp only [Plan.run]
    cases st.memory.slice (place.address s) count with
    | error e => exact .inr rfl
    | ok ws => exact ih ws st
  | write place words _ ih =>
    obtain ⟨memory, strings⟩ := st
    simp only [Plan.run]
    cases memory.resolve (place.address s) words.length with
    | error e => exact .inr rfl
    | ok i => exact ih _
  | observe f _ ih =>
    simp only [Plan.run]
    cases f st.strings with
    | error e => exact .inr rfl
    | ok answer => exact ih answer st
  | concat r t _ ih =>
    obtain ⟨memory, strings⟩ := st
    simp only [Plan.run]
    cases strings.concat r t with
    | error e => exact .inr rfl
    | ok joined => exact ih joined.1 _

end Guards
end Plan

namespace Step
open Plan
variable (settings : Settings) (m : Module)

theorem jumpTo_guards (target : Int) :
    (jumpTo settings m target).Guards (jumpTo settings.unchecked m target) := by
  unfold jumpTo
  split
  · exact .refused (by trivial) _
  · exact .done _

theorem entityAddress_guards (l : Layout) (bounds : Bool) (entity field : Int) (width : Nat) :
    (ofExcept (entityAddress l bounds entity field width)).Guards
      (ofExcept (entityAddress l false entity field width)) := by
  unfold entityAddress
  split
  · exact .refused (by trivial) _
  · split
    · exact .refused (by trivial) _
    · exact .refl _

/-- Checking bounds changes an opcode only by refusing. -/
theorem effect_guards (index : Nat) (s : Statement) (op : Opcode) :
    (effect settings m index s op).Guards (effect settings.unchecked m index s op) := by
  cases op with
  | load cell =>
    simp only [effect]
    apply Guards.bind (.refl _)
    intro entity
    apply Guards.bind (.refl _)
    intro field
    exact .bind (entityAddress_guards ..) fun address => .refl _
  | fieldAddress =>
    simp only [effect]
    apply Guards.bind (.refl _)
    intro entity
    apply Guards.bind (.refl _)
    intro field
    split
    · exact .refused (by trivial) _
    · exact .bind (entityAddress_guards ..) fun address => .refl _
  | branch condition =>
    simp only [effect]
    apply Guards.bind (.refl _)
    intro x
    split
    · exact jumpTo_guards settings m _
    · exact .refl _
  | goto => exact jumpTo_guards settings m _
  | jump => exact .bind (.refl _) fun target => jumpTo_guards settings m _
  | jumpTable =>
    simp only [effect]
    apply Guards.bind (.refl _)
    intro pointer
    apply Guards.bind (.refl _)
    intro offset
    exact .bind (.refl _) fun target => jumpTo_guards settings m _
  | state =>
    simp only [effect]
    refine .bind (.refl _) fun self => .bind (.refl _) fun time => .bind (.refl _) fun nextThink =>
      .bind (.refl _) fun frame => .bind (.refl _) fun think => .bind (.refl _) fun entity =>
      .bind (.refl _) fun now => .bind (.refl _) fun number => .bind (.refl _) fun function => ?_
    refine .bind (entityAddress_guards ..) fun first => .bind (.refl _) fun _ => ?_
    refine .bind (entityAddress_guards ..) fun second => .bind (.refl _) fun _ => ?_
    exact .bind (entityAddress_guards ..) fun third => .refl _
  | complement kind => cases kind <;> exact .refl _
  | compare kind op => cases kind <;> exact .refl _
  | same kind equal => cases kind <;> exact .refl _
  | isEmpty kind => cases kind <;> exact .refl _
  | _ => exact .refl _

end Step

theorem step_unchecked (settings : Settings) (m : Module) (index : Nat) (s : Statement) (st : Store) :
    (∃ e, (step settings m index s st).1 = .error e ∧ e.OfBounds) ∨
      step settings.unchecked m index s st = step settings m index s st := by
  unfold step
  cases Opcode.ofCode? s.op with
  | none => exact .inr rfl
  | some op => exact (Step.effect_guards settings m index s op).run s st

namespace Machine

def unchecked (v : Machine) : Machine := { v with settings := v.settings.unchecked }

variable (v : Machine) (m : Module)

@[simp] theorem unchecked_settings : v.unchecked.settings = v.settings.unchecked := rfl
@[simp] theorem unchecked_depth : v.unchecked.depth = v.depth := rfl

theorem enter_unchecked (number : Nat) :
    v.unchecked.enter m number = ((v.enter m number).1, (v.enter m number).2.unchecked) :=
  enter_under v m Settings.unchecked_deadbeefLocals number

theorem unwind_unchecked (depth : Nat) :
    v.unchecked.unwind m depth = (v.unwind m depth).unchecked := unwind_under v m depth

theorem turn_unchecked (frame : RunFrame) (executed : Nat) (next : Int) :
    (∃ e, (v.turn frame executed next).1 = .fault e ∧ e.OfBounds) ∨
      v.unchecked.turn frame executed next =
        ((v.turn frame executed next).1, (v.turn frame executed next).2.unchecked) :=
  turn_under v Settings.unchecked_deadbeefLocals
    (fun m index s st => step_unchecked v.settings m index s st) frame executed next

/-- Reloading an image that passes the static check does not depend on bounds checks. -/
theorem reload_unchecked {image : Text.Bytes}
    (sound : ∀ program, Image.load image v.capacity v.heapBytes = .ok program →
      Validation.check program = .ok ()) :
    v.unchecked.reload image = (v.reload image).map unchecked := by
  have read : readProgram v.settings image v.capacity v.heapBytes =
      Image.load image v.capacity v.heapBytes := by
    unfold readProgram
    cases hl : Image.load image v.capacity v.heapBytes with
    | error e => rfl
    | ok program =>
      simp only [bind, Except.bind, sound program hl]
      split <;> rfl
  have readUnchecked : readProgram v.settings.unchecked image v.capacity v.heapBytes =
      Image.load image v.capacity v.heapBytes := by
    unfold readProgram
    cases Image.load image v.capacity v.heapBytes with
    | error e => rfl
    | ok program => rfl
  simp only [reload, load]
  rw [unchecked_settings, show v.unchecked.capacity = v.capacity from rfl,
    show v.unchecked.heapBytes = v.heapBytes from rfl, read, readUnchecked]
  cases Image.load image v.capacity v.heapBytes with
  | error e => rfl
  | ok program =>
    simp only [bind, Except.bind]
    cases initialMemory program with
    | error e => rfl
    | ok memory => rfl

end Machine

/-- A host program that executes no function and does the same whether bounds are checked or not.
Reloading consults the settings, as it checks the module if bounds are checked: the image has to be
one that passes. -/
def HostProgram.Blind : HostProgram → Prop
  | done | fail _ => True
  | inspect k => ∀ v roster, k v.unchecked roster = k v roster ∧ (k v roster).Blind
  | write _ _ k => ∀ result, (k result).Blind
  | makeString _ k => ∀ r, (k r).Blind
  | clearStrings k | setArgc _ k | setTracing _ k | emit _ k => k.Blind
  | reload image k =>
    (∀ capacity heapBytes program, Image.load image capacity heapBytes = .ok program →
      Validation.check program = .ok ()) ∧ ∀ result, (k result).Blind
  | register _ _ body k => body.Blind ∧ k.Blind
  | .execute _ _ => False

namespace Session

/-- No builtin executes a function or consults the settings. -/
def Blind (s : Session) : Prop := ∀ b ∈ s.builtins, b.body.Blind

def unchecked (s : Session) : Session := s.onMachine Machine.unchecked

end Session

theorem HostProgram.Blind.ignores {p : HostProgram} (h : p.Blind) : p.Ignores Settings.unchecked := by
  induction p with
  | done => trivial
  | fail e => trivial
  | inspect k ih => exact fun v roster => ⟨(h v roster).1, ih v roster (h v roster).2⟩
  | write address words k ih => exact fun result => ih result (h result)
  | makeString bytes k ih => exact fun r => ih r (h r)
  | clearStrings k ih => exact ih h
  | setArgc argc k ih => exact ih h
  | setTracing on k ih => exact ih h
  | emit line k ih => exact ih h
  | reload image k ih =>
    exact ⟨fun v => v.reload_unchecked (h.1 _ _), fun result => ih result (h.2 result)⟩
  | register number name body k body_ih ih => exact ⟨body_ih h.1, ih h.2⟩
  | execute function k ih => exact h.elim

namespace Session

theorem Blind.ignores {s : Session} (h : s.Blind) : s.Ignores Settings.unchecked :=
  fun b hb => (h b hb).ignores

theorem callBuiltin_unchecked {x y : Nat → Session → Ending RuntimeFault × Session}
    (number : UInt32) {s : Session} (hs : s.Blind) :
    callBuiltin x number s.unchecked =
        ((callBuiltin y number s).1, (callBuiltin y number s).2.unchecked) ∧
      (callBuiltin y number s).2.Ignores Settings.unchecked :=
  callBuiltin_under number hs.ignores

theorem located_unchecked (m : Module) (ending : Ending Fault) (s : Session) :
    located m (ending, s.unchecked) =
      ((located m (ending, s)).1, (located m (ending, s)).2.unchecked) :=
  located_under m ending s

/-- A run is refused by a bounds check, or it is the run that does not check bounds. -/
theorem interpret_unchecked (fuel : Nat) (frame : RunFrame) (executed : Nat) (next : Int)
    {s : Session} (hs : s.Blind) :
    (interpret fuel frame executed next s).1.Refused ∨
      interpret fuel frame executed next s.unchecked =
        ((interpret fuel frame executed next s).1,
          (interpret fuel frame executed next s).2.unchecked) := by
  have turns : frame.Follows Settings.unchecked Fault.OfBounds frame :=
    fun executed next v => v.turn_unchecked frame executed next
  rcases interpret_under turns rfl fuel executed next hs.ignores with stopped | same
  · left
    cases hr : (interpret fuel frame executed next s).1 <;> rw [hr] at stopped <;> exact stopped
  · exact .inr same

/-- Executing with bounds checks is refused by one of them, or it ends as executing without them does:
in one way, with one machine but for that setting. -/
theorem checked_execution_agrees (fuel number : Nat) (s : Session) (hs : s.Blind) :
    (execute fuel number s).1.Refused ∨
      execute fuel number s.unchecked =
        ((execute fuel number s).1, (execute fuel number s).2.unchecked) := by
  cases fuel with
  | zero => exact .inr rfl
  | succ fuel =>
    have begun : (s.onMachine Machine.beginRun).Blind := hs
    simp only [execute]
    rw [show s.unchecked.machine.program = s.machine.program from rfl,
      show s.unchecked.onMachine Machine.beginRun = (s.onMachine Machine.beginRun).unchecked from rfl]
    generalize s.onMachine Machine.beginRun = r at begun
    cases s.machine.program.executable number with
    | error e => exact .inr rfl
    | ok callee =>
      cases callee with
      | builtin n =>
        have called := (callBuiltin_unchecked (x := execute fuel) (y := execute fuel) n begun).1
        right
        dsimp only
        rw [called, located_unchecked]
        rfl
      | bytecode =>
        dsimp only
        rw [show r.unchecked.machine = r.machine.unchecked from rfl, Machine.enter_unchecked,
          Machine.unchecked_depth]
        cases r.machine.enter s.machine.program number with
        | mk result u =>
          cases result with
          | error e =>
            right
            dsimp only [failWith, onMachine]
            rw [Machine.unwind_unchecked]
            rfl
          | ok first =>
            have ran := interpret_unchecked fuel
              (.opening s.machine.program r.machine.depth u.settings) 0 first
              (s := { r with machine := u }) begun
            rcases ran with refused | same
            · exact .inl refused
            · right
              dsimp only [onMachine]
              rw [show ({ machine := u.unchecked, builtins := r.unchecked.builtins } : Session) =
                  ({ machine := u, builtins := r.builtins } : Session).unchecked from rfl,
                show RunFrame.opening s.machine.program r.machine.depth u.unchecked.settings =
                  .opening s.machine.program r.machine.depth u.settings from rfl, same]
              dsimp only [unchecked, onMachine]
              rw [Machine.unwind_unchecked]
              rfl

/-- A module with two entities of one field. Its first function reads the field of the second entity
and calls a builtin; its second function reads the field of an entity that does not exist. -/
def entitiesImage : Text.Bytes :=
  { Builder.empty with
    statements := #[.null,
      ⟨(Opcode.load .float).code, 28, 29, 30⟩, bareCall 31,
      ⟨Opcode.done.code, 30, 0, 0⟩,
      ⟨(Opcode.load .float).code, 32, 29, 30⟩, ⟨Opcode.done.code, 30, 0, 0⟩]
    functions := #[.null,
      { FunctionRecord.null with entry := 1 }, { FunctionRecord.null with entry := 4 },
      { FunctionRecord.null with entry := -1 }]
    globals := Builder.empty.globals ++ #[1, 0, 0, 3, 5]
    entityFields := 1 : Builder }.bytes

theorem entitiesImage_loads :
    (Machine.load entitiesImage 2 0 { boundsCheck := true }).toOption.isSome := by decide +kernel

/-- The module, checked as it was loaded, with a builtin that writes to memory what it finds there. -/
def entities : Session :=
  ⟨(Machine.load entitiesImage 2 0 { boundsCheck := true }).toOption.get entitiesImage_loads,
    [⟨1, "count", .inspect fun v _ => .write 30 [UInt32.ofNat v.argc] fun _ => .done⟩]⟩

theorem entities_blind : entities.Blind := by
  intro b hb
  rw [List.mem_singleton.mp hb]
  exact fun v roster => ⟨rfl, fun result => trivial⟩

theorem entities_finish : (execute 9 1 entities).1 = .finished := by decide +kernel

/-- The first function ends in the same way with the checks and without them. -/
theorem entities_agree :
    entities.Blind ∧ (execute 9 1 entities).1 = .finished ∧
      execute 9 1 entities.unchecked =
        ((execute 9 1 entities).1, (execute 9 1 entities).2.unchecked) := by
  refine ⟨entities_blind, entities_finish, ?_⟩
  apply (checked_execution_agrees 9 1 entities entities_blind).resolve_left
  rw [entities_finish]
  exact id

end Session
end GameBytecode
