import GameBytecode.Host.Request
import GameBytecode.Proofs.Accounting
import GameBytecode.Proofs.AssembledOperands
import GameBytecode.Proofs.RegionIsolation

/-!
The host's access to globals and fields by name. What is written reads back as it is; only the words of
the global or of the field change, and those of a field are all in the record of the entity; and what is
refused changes nothing.
-/
namespace GameBytecode

namespace Value
variable {value : Value}

theorem length_words (held : value.type ≠ .void) : value.words.length = value.type.width := by
  cases value with
  | void => exact absurd rfl held
  | _ => rfl

theorem ofWords?_words (held : value.type ≠ .void) : ofWords? value.type value.words = some value := by
  cases value with
  | void => exact absurd rfl held
  | _ => rfl

end Value

namespace Machine
variable {v v' : Machine} {value : Value} {d : Def}

/-- The name is that of a global of the type of the value, and there is memory for it. -/
structure TakesGlobal (v : Machine) (name : String) (value : Value) (d : Def) : Prop where
  named : v.program.findGlobal? name = some d
  typed : d.type? = some value.type
  inside : d.offset.toNat + value.type.width ≤ v.program.layout.total

/-- The name is that of a field of the type of the value, and the entity is there and has the words of
the field. -/
structure TakesField (v : Machine) (entity : Nat) (name : String) (value : Value) (d : Def) : Prop where
  named : v.program.findField? name = some d
  typed : d.type? = some value.type
  present : v.program.layout.hasEntity entity
  inside : v.program.layout.hasField d.offset.toNat value.type.width

/-- The machine is the other one but for the words at an address, which hold the value. -/
structure Assigned (v v' : Machine) (address : Nat) (value : Value) : Prop where
  memory_only : v' = { v with store.memory := v'.store.memory }
  held : v'.store.memory.slice address value.type.width = .ok value.words
  kept : ∀ w, ¬ (address ≤ w ∧ w < address + value.type.width) →
    v'.store.memory.words[w]? = v.store.memory.words[w]?

theorem act_put (held : value.type ≠ .void) (v : Machine) (address : Nat) :
    address + value.type.width ≤ v.store.memory.words.size ∧
      (∃ v', v.act (Action.put address value.words) = (.ok (), v') ∧ v.Assigned v' address value) ∨
    ¬ address + value.type.width ≤ v.store.memory.words.size ∧
      ∃ e, v.act (Action.put address value.words) = (.error e, v) := by
  have length := Value.length_words held
  rw [act_eq, Action.put, Memory.resolve_natCast, length]
  by_cases inside : address + value.type.width ≤ v.store.memory.words.size
  · rw [if_pos inside]
    rw [← length] at inside
    have written (a : Nat) := Memory.getElem?_setWords v.store.memory.words address a value.words inside
    refine .inl ⟨by rwa [← length], _, rfl, rfl, ?_, fun w outside => ?_⟩
    · rw [← length]
      apply Memory.slice_of_words
      · rw [setStore_store, Memory.size_setWords]
        exact inside
      · intro j hj
        rw [setStore_store, written, if_pos (by omega), Nat.add_sub_cancel_left]
    · rw [← length] at outside
      rw [setStore_store, written, if_neg outside]
  · rw [if_neg inside]
    exact .inr ⟨inside, _, rfl⟩

/-- A value is read back where it is held, through a def of its type. -/
theorem Assigned.readTyped {address : Nat} (assigned : v.Assigned v' address value)
    (held : value.type ≠ .void) (typed : d.type? = some value.type) (name : String) :
    v'.readTyped name d address = .ok value := by
  simp only [Machine.readTyped, typed, assigned.held, Bind.bind, Except.bind, Value.ofWords?_words held]
  rfl

/-- What is written at a place worked out from the machine, if there is one. -/
def assign (v : Machine) (target : Except Fault (Int × List Word)) : Except Fault Unit × Machine :=
  match target with
  | .ok place => v.act (Action.put place.1 place.2)
  | .error e => (.error e, v)

/-- A value goes to an address if its type is the declared one and there is memory for it. -/
theorem assign_typed (held : value.type ≠ .void) (v : Machine) (name : String) (d : Def)
    (address : Nat) :
    (d.type? = some value.type ∧ address + value.type.width ≤ v.store.memory.words.size) ∧
      (∃ v', v.assign ((typedWords name d value).map fun words => ((address : Int), words)) =
        (.ok (), v') ∧ v.Assigned v' address value) ∨
    ¬ (d.type? = some value.type ∧ address + value.type.width ≤ v.store.memory.words.size) ∧
      ∃ e, v.assign ((typedWords name d value).map fun words => ((address : Int), words)) =
        (.error e, v) := by
  by_cases typed : d.type? = some value.type
  · simp only [typedWords, if_pos typed]
    rcases v.act_put held address with ⟨inside, written⟩ | ⟨outside, refused⟩
    · exact .inl ⟨⟨typed, inside⟩, written⟩
    · exact .inr ⟨fun both => outside both.2, refused⟩
  · simp only [typedWords, if_neg typed]
    exact .inr ⟨fun both => typed both.1, _, rfl⟩

theorem assign_global (housed : v.Housed) (held : value.type ≠ .void) (name : String) :
    (∃ d v', v.TakesGlobal name value d ∧ v.assign (v.globalTarget name value) = (.ok (), v') ∧
      v.Assigned v' d.offset.toNat value ∧ v'.globalValue name = .ok value) ∨
    (¬ ∃ d, v.TakesGlobal name value d) ∧ ∃ e, v.assign (v.globalTarget name value) = (.error e, v) := by
  cases named : v.program.findGlobal? name with
  | none =>
    refine .inr ⟨?_, .globalNotFound name, ?_⟩
    · rintro ⟨d, takes⟩
      cases named.symm.trans takes.named
    · simp only [globalTarget, globalDef, named]
      rfl
  | some d =>
    have target : v.globalTarget name value =
        (typedWords name d value).map fun words => ((d.offset.toNat : Int), words) := by
      simp only [globalTarget, globalDef, named]
      change typedWords name d value >>= _ = _
      cases typedWords name d value <;> rfl
    rw [target]
    rcases v.assign_typed held name d d.offset.toNat with
      ⟨⟨typed, inside⟩, v', written, assigned⟩ | ⟨other, e, refused⟩
    · have same : v'.program = v.program := by rw [assigned.memory_only]
      refine .inl ⟨d, v', ⟨named, typed, by rwa [← housed.size]⟩, written, assigned, ?_⟩
      simp only [globalValue, globalDef, same, named]
      exact assigned.readTyped held typed name
    · refine .inr ⟨?_, e, refused⟩
      rintro ⟨d', takes⟩
      cases named.symm.trans takes.named
      exact other ⟨takes.typed, by rw [housed.size]; exact takes.inside⟩

theorem fieldPlace_eq (ordered : v.program.layout.Ordered) (entity : Nat) {name : String} {width : Nat}
    (named : v.program.findField? name = some d) (wide : (d.type?.map (·.width)).getD 1 = width) :
    (v.program.layout.hasEntity entity ∧ v.program.layout.hasField d.offset.toNat width) ∧
      (∃ address : Nat, v.fieldPlace entity name = .ok (d, address) ∧
        (address : Int) = v.program.layout.fieldWord entity d.offset.toNat) ∨
    ¬ (v.program.layout.hasEntity entity ∧ v.program.layout.hasField d.offset.toNat width) ∧
      ∃ e, v.fieldPlace entity name = .error e := by
  have first (there : v.program.layout.hasField d.offset.toNat width) :
      v.program.layout.hasField d.offset.toNat 1 := by
    have positive : 0 < width := by
      rw [← wide]
      cases d.type? with
      | none => exact Nat.one_pos
      | some type => exact type.width_pos
    simp only [Layout.hasField, Bool.and_eq_true, decide_eq_true_eq] at there ⊢
    omega
  have place : v.fieldPlace entity name = (v.fieldIndex entity d.offset.toNat).bind fun address =>
      if v.program.layout.hasField d.offset.toNat width then .ok (d, (address : Int))
      else .error (.invalidFieldAccess d.offset.toNat) := by
    simp only [fieldPlace, fieldDef, named, ← wide]
    change v.fieldIndex entity d.offset.toNat >>= _ = _
    cases v.fieldIndex entity d.offset.toNat with
    | error e => rfl
    | ok address =>
      change ite _ _ _ = ite _ _ _
      split <;> rfl
  rw [place, fieldIndex]
  cases present : v.program.layout.hasEntity entity with
  | false => exact .inr ⟨by simp, _, rfl⟩
  | true =>
    cases there : v.program.layout.hasField d.offset.toNat width with
    | false =>
      refine .inr ⟨by simp, .invalidFieldAccess d.offset.toNat, ?_⟩
      cases narrow : v.program.layout.hasField d.offset.toNat 1 with
      | false => rfl
      | true =>
        rw [ordered.fieldAddress_eq present narrow]
        rfl
    | true =>
      left
      have found := ordered.fieldAddress_eq present there
      refine ⟨⟨rfl, rfl⟩, (v.program.layout.fieldWord entity d.offset.toNat % 0x100000000).toNat, ?_, ?_⟩
      · rw [first there, found]
        rfl
      · have isolated := ordered.isolated present there
        have low := isolated.globals
        have high := isolated.heap
        have heap := ordered.heap
        have total := ordered.total_le
        omega

theorem assign_field (housed : v.Housed) (held : value.type ≠ .void) (entity : Nat) (name : String) :
    (∃ d v', ∃ address : Nat, v.TakesField entity name value d ∧
      v.assign (v.fieldTarget entity name value) = (.ok (), v') ∧
      (address : Int) = v.program.layout.fieldWord entity d.offset.toNat ∧
      v.Assigned v' address value ∧ v'.fieldValue entity name = .ok value) ∨
    (¬ ∃ d, v.TakesField entity name value d) ∧
      ∃ e, v.assign (v.fieldTarget entity name value) = (.error e, v) := by
  cases named : v.program.findField? name with
  | none =>
    refine .inr ⟨?_, .fieldNotFound name, ?_⟩
    · rintro ⟨d, takes⟩
      cases named.symm.trans takes.named
    · simp only [fieldTarget, fieldPlace, fieldDef, named]
      rfl
  | some d =>
    rcases fieldPlace_eq housed.ordered entity named rfl with
      ⟨⟨present, there⟩, address, place, same⟩ | ⟨nowhere, e, refused⟩
    · have target : v.fieldTarget entity name value =
          (typedWords name d value).map fun words => ((address : Int), words) := by
        simp only [fieldTarget, place]
        change typedWords name d value >>= _ = _
        cases typedWords name d value <;> rfl
      rw [target]
      have inside (typed : d.type? = some value.type) :
          address + value.type.width ≤ v.store.memory.words.size := by
        rw [typed] at there
        have isolated := housed.ordered.isolated present there
        have high := isolated.heap
        have heap := housed.ordered.heap
        rw [housed.size]
        simp only [Option.map_some, Option.getD_some] at high
        omega
      rcases v.assign_typed held name d address with
        ⟨⟨typed, -⟩, v', written, assigned⟩ | ⟨other, e, refused⟩
      · left
        refine ⟨d, v', address, ⟨named, typed, present, ?_⟩, written, same, assigned, ?_⟩
        · rwa [typed] at there
        · have same : v'.fieldPlace entity name = .ok (d, address) := by
            rw [assigned.memory_only]
            exact place
          rw [fieldValue, same]
          exact assigned.readTyped held typed name
      · refine .inr ⟨?_, e, refused⟩
        rintro ⟨d', takes⟩
        cases named.symm.trans takes.named
        exact other ⟨takes.typed, inside takes.typed⟩
    · refine .inr ⟨?_, e, ?_⟩
      · rintro ⟨d', takes⟩
        cases named.symm.trans takes.named
        refine nowhere ⟨takes.present, ?_⟩
        rw [takes.typed]
        exact takes.inside
      · simp only [fieldTarget, refused]
        rfl

end Machine

namespace HostM.Request

/-- What a request does to a session, whatever program goes on with its answer. -/
def Does (request : Request Unit) (s : Session) (result : Except Fault Unit) (v : Machine) : Prop :=
  ∀ execute k, HostProgram.perform execute (request k) s =
    (k result).perform execute { s with machine := v }

/-- A look at the machine goes on with what it finds, or ends the request with its fault. -/
theorem perform_look {α : Type} (f : Machine → Except Fault α) (g : α → Request Unit)
    (execute : Nat → Session → Ending RuntimeFault × Session) (k : Except Fault Unit → HostProgram)
    (s : Session) : ((look f >>= g) k).perform execute s =
      match f s.machine with
      | .ok a => (g a k).perform execute s
      | .error e => (k (.error e)).perform execute s := by
  change (ExceptT.bindCont g (f s.machine) k).perform execute s = _
  cases f s.machine with
  | ok a => rfl
  | error e => rfl

theorem setGlobal_does (s : Session) (name : String) (value : Value) :
    (setGlobal name value).Does s (s.machine.assign (s.machine.globalTarget name value)).1
      (s.machine.assign (s.machine.globalTarget name value)).2 := by
  intro execute k
  rw [setGlobal, perform_look]
  cases s.machine.globalTarget name value with
  | ok place => rfl
  | error e => rfl

theorem setField_does (s : Session) (entity : Nat) (name : String) (value : Value) :
    (setField entity name value).Does s (s.machine.assign (s.machine.fieldTarget entity name value)).1
      (s.machine.assign (s.machine.fieldTarget entity name value)).2 := by
  intro execute k
  rw [setField, perform_look]
  cases s.machine.fieldTarget entity name value with
  | ok place => rfl
  | error e => rfl

end HostM.Request

namespace Session
open HostM.Request

theorem Reached.housed {s : Session} (h : s.Reached) : s.machine.Housed := by
  obtain ⟨image, capacity, heapBytes, settings, v, builtins, program, n, c, loaded, hc, rfl⟩ := h
  refine Configuration.after_invariant (P := fun c => c.machine.Housed) ?_ ?_ hc
  · exact Machine.housed_of_load loaded
  · exact fun _ _ housed => Configuration.next_housed housed

/-- A request is granted under a condition, and then something has been done; or it is refused, and
nothing has changed. -/
theorem answer_of_cases {result : Except Fault Unit} {v v' : Machine} {takes done : Prop}
    (h : takes ∧ result = .ok () ∧ done ∨ ¬ takes ∧ (∃ e, result = .error e) ∧ v' = v) :
    (result = .ok () ↔ takes) ∧ (result = .ok () → done) ∧ (result ≠ .ok () → v' = v) := by
  rcases h with ⟨holds, rfl, after⟩ | ⟨fails, ⟨e, rfl⟩, same⟩
  · exact ⟨iff_of_true rfl holds, fun _ => after, fun other => absurd rfl other⟩
  · have other : Except.error e ≠ (.ok () : Except Fault Unit) := by simp
    exact ⟨iff_of_false other fails, fun granted => absurd granted other, fun _ => same⟩

/-- The host writes a global, or a field of an entity, by its name. The request is granted when there is
a def of that name and of the type of the value, with its words in memory, or in the record of an entity
that there is. Then the value reads back as it is, and of the whole machine only the words of the def may
have changed, which for a field all are the entity's own. Otherwise the request is refused, and nothing
has changed. -/
theorem host_access {s : Session} (reached : s.Reached) {value : Value} (held : value.type ≠ .void) :
    (∀ name, ∃ result v, (setGlobal name value).Does s result v ∧
      (result = .ok () ↔ ∃ d, s.machine.TakesGlobal name value d) ∧
      (result = .ok () → ∃ d, s.machine.TakesGlobal name value d ∧
        s.machine.Assigned v d.offset.toNat value ∧ v.globalValue name = .ok value) ∧
      (result ≠ .ok () → v = s.machine)) ∧
    ∀ (entity : Nat) name, ∃ result v, (setField entity name value).Does s result v ∧
      (result = .ok () ↔ ∃ d, s.machine.TakesField entity name value d) ∧
      (result = .ok () → ∃ d, ∃ address : Nat, s.machine.TakesField entity name value d ∧
        (address : Int) = s.machine.program.layout.fieldWord entity d.offset.toNat ∧
        s.machine.program.layout.Isolated entity address value.type.width ∧
        s.machine.Assigned v address value ∧ v.fieldValue entity name = .ok value) ∧
      (result ≠ .ok () → v = s.machine) := by
  have housed := reached.housed
  constructor
  · intro name
    refine ⟨_, _, setGlobal_does s name value, answer_of_cases ?_⟩
    rcases Machine.assign_global housed held name with
      ⟨d, v, takes, written, assigned, read⟩ | ⟨none, e, refused⟩
    · rw [written]
      exact .inl ⟨⟨d, takes⟩, rfl, d, takes, assigned, read⟩
    · rw [refused]
      exact .inr ⟨none, ⟨e, rfl⟩, rfl⟩
  · intro entity name
    refine ⟨_, _, setField_does s entity name value, answer_of_cases ?_⟩
    rcases Machine.assign_field housed held entity name with
      ⟨d, v, address, takes, written, same, assigned, read⟩ | ⟨none, e, refused⟩
    · have isolated := housed.ordered.isolated takes.present takes.inside
      rw [← same] at isolated
      rw [written]
      exact .inl ⟨⟨d, takes⟩, rfl, d, address, takes, same, isolated, assigned, read⟩
    · rw [refused]
      exact .inr ⟨none, ⟨e, rfl⟩, rfl⟩

/-- The host sets a global and the last field of the last entity; there is no further entity. -/
theorem residents_access :
    (∃ v, (setGlobal "frame_number" (.float 7)).Does ⟨residents, []⟩ (.ok ()) v ∧
      v.globalValue "frame_number" = .ok (.float 7)) ∧
    (∃ v, (setField 3 "origin" (.vector ⟨1, 2, 3⟩)).Does ⟨residents, []⟩ (.ok ()) v ∧
      v.fieldValue 3 "origin" = .ok (.vector ⟨1, 2, 3⟩)) ∧
    ∃ e, (setField 4 "origin" (.vector ⟨1, 2, 3⟩)).Does ⟨residents, []⟩ (.error e) residents := by
  have reached : Reached ⟨residents, []⟩ :=
    ⟨_, 4, 10, _, residents, [], .done, 0, _, eq_ok_get residents_loads, rfl, rfl⟩
  obtain ⟨total, frame, origin, there, absent⟩ : 37 ≤ residents.program.layout.total ∧
      residents.program.findGlobal? "frame_number" = some ⟨2, 34, 31⟩ ∧
      residents.program.findField? "origin" = some ⟨3, 3, 24⟩ ∧
      (residents.program.layout.hasEntity 3 ∧ residents.program.layout.hasField 3 3) ∧
      residents.program.layout.hasEntity 4 = false := by decide +kernel
  generalize residents = v at *
  have global : v.TakesGlobal "frame_number" (.float 7) ⟨2, 34, 31⟩ :=
    ⟨frame, by decide, Nat.le_trans (by decide) total⟩
  have field : v.TakesField 3 "origin" (.vector ⟨1, 2, 3⟩) ⟨3, 3, 24⟩ :=
    ⟨origin, by decide, there.1, there.2⟩
  obtain ⟨globals, -⟩ := @host_access ⟨v, []⟩ reached (.float 7) (by decide)
  obtain ⟨-, fields⟩ := @host_access ⟨v, []⟩ reached (.vector ⟨1, 2, 3⟩) (by decide)
  refine ⟨?_, ?_, ?_⟩
  · obtain ⟨result, w, does, granted, after, -⟩ := globals "frame_number"
    have ok := granted.mpr ⟨_, global⟩
    obtain ⟨d, -, -, read⟩ := after ok
    rw [ok] at does
    exact ⟨w, does, read⟩
  · obtain ⟨result, w, does, granted, after, -⟩ := fields 3 "origin"
    have ok := granted.mpr ⟨_, field⟩
    obtain ⟨d, address, -, -, -, -, read⟩ := after ok
    rw [ok] at does
    exact ⟨w, does, read⟩
  · obtain ⟨result, w, does, granted, -, refused⟩ := fields 4 "origin"
    cases result with
    | ok answer =>
      obtain ⟨d, takes⟩ := granted.mp rfl
      cases absent.symm.trans takes.present
    | error e =>
      rw [refused (by simp)] at does
      exact ⟨e, does⟩

end Session
end GameBytecode
