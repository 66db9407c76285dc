import GameBytecode.Proofs.RunInvariant

/-!
The words of a function's locals are the same after the function as before it, whatever has been
written in between. The value of a return stays, where it is not among those words.
-/
namespace GameBytecode

theorem Memory.getElem?_region {memory : Memory} {f : FunctionRecord} (a : Nat)
    (inside : f.start.toNat + f.locals.toNat ≤ memory.words.size) (ha : a < f.locals.toNat) :
    (memory.region f)[a]? = memory.words[f.start.toNat + a]? := by
  simp only [region]
  rw [Array.getElem?_toList, Array.getElem?_extract, if_pos (by omega)]

/-- A control state in a function or above it, wherever the function stands. -/
def CallState.Within (m : Module) (size : Nat) (base c : CallState) : Prop :=
  ∃ statement, Above m size { base with statement } c

namespace Machine
variable {v v' : Machine} {m : Module} {base : CallState}

theorem Shift.within (h : v.Shift m v') (hb : base.Within m v.store.memory.words.size v.control)
    (h0 : 0 < base.calls.depth) (hd : base.calls.depth ≤ v'.depth) :
    base.Within m v.store.memory.words.size v'.control := by
  obtain ⟨place, above⟩ := hb
  have moved (statement : Nat) :
      base.Within m v.store.memory.words.size { v.control with statement } := by
    rcases Nat.eq_or_lt_of_le above.depth_le with here | below
    · refine ⟨statement, ?_⟩
      rw [above.eq_base (Nat.le_of_eq here.symm)]
      exact .base
    · exact ⟨place, above.move below statement⟩
  cases h with
  | stay statement control =>
    rw [control]
    exact moved statement
  | enter statement number f enterable frame room control =>
    obtain ⟨place', above'⟩ := moved statement
    rw [control]
    exact ⟨place', .entered statement above' enterable frame room
      (Memory.length_region enterable.inside)⟩
  | leave statement u size control after =>
    have lower := leave_depth u m
    have same : u.depth = v.depth := by unfold depth; rw [control]
    have below : base.calls.depth < v.depth := by rw [after] at hd; omega
    have lowered := Shift.above (.leave statement u size control after) above below
    exact ⟨place, lowered⟩

end Machine
namespace Configuration
variable {s : Session} {number : Nat} {before first last left : Configuration}

/-- A function in progress, from the step of an execution that enters it to the step that takes its
frame away. -/
structure Activation (s : Session) (number : Nat) (before first last left : Configuration) :
    Prop where
  reached : ∃ n, after n (start number s) = some before
  enters : before.next = some first
  deeper : first.depth = before.depth + 1
  inside : ∃ n, after n first = some last ∧
    ∀ k ≤ n, ∀ c, after k first = some c → before.depth < c.depth
  leaves : last.next = some left
  ended : left.depth ≤ before.depth

theorem fetch_machine (frame : RunFrame) (executed : Nat) (next : Int) (s : Session)
    (waiting : List Waiting) :
    (fetch frame executed next s waiting).machine = (s.machine.turn frame executed next).2 := by
  unfold fetch
  cases s.machine.turn frame executed next with
  | mk turn u =>
    cases turn with
    | builtin n next' =>
      dsimp only
      split <;> rfl
    | _ => rfl

theorem within_after {v : Machine} {base : CallState} {c d : Configuration} {n : Nat}
    (orderly : c.Orderly v)
    (within : base.Within v.program v.store.memory.words.size c.machine.control)
    (h0 : 0 < base.calls.depth)
    (inside : ∀ k ≤ n, ∀ e, after k c = some e → base.calls.depth ≤ e.depth)
    (hd : after n c = some d) :
    d.Orderly v ∧ base.Within v.program v.store.memory.words.size d.machine.control := by
  induction n generalizing d with
  | zero =>
    cases hd
    exact ⟨orderly, within⟩
  | succ n ih =>
    rw [after_succ] at hd
    obtain ⟨e, he, hn⟩ := Option.bind_eq_some_iff.mp hd
    obtain ⟨orderly', within'⟩ := ih (fun k hk => inside k (Nat.le_succ_of_le hk)) he
    obtain ⟨orderly'', shift⟩ := orderly'.follows hn
    refine ⟨orderly'', ?_⟩
    rw [← orderly'.atop.size] at within' ⊢
    refine shift.within within' h0 (inside (n + 1) (Nat.le_refl _) d ?_)
    rw [after_succ, he]
    exact hn

/-- The words of the locals before the function are what leaving it writes over them. -/
theorem Activation.saved (hs : s.Steady) (h : Activation s number before first last left) :
    ∃ f, s.machine.program.Enterable before.machine.store.memory.words.size
        first.machine.control.function f ∧
      first.Orderly s.machine ∧ last.Orderly s.machine ∧
      last.machine.store.memory.words.size = before.machine.store.memory.words.size ∧
      ∀ (u : Machine) (statement : Nat),
        u.store.memory.words.size = before.machine.store.memory.words.size →
        u.control = { last.machine.control with statement } →
          (u.leave s.machine.program).2.store.memory.words =
            Memory.setWords u.store.memory.words f.start.toNat
              (before.machine.store.memory.region f) := by
  obtain ⟨i, hi⟩ := h.reached
  obtain ⟨n, hn, inside⟩ := h.inside
  have orderly := orderly_after hs hi
  obtain ⟨orderly₁, entering⟩ := orderly.follows h.enters
  have deeper : first.machine.depth = before.machine.depth + 1 := h.deeper
  cases entering with
  | stay statement control =>
    have same : first.machine.depth = before.machine.depth := by
      unfold Machine.depth
      rw [control]
    omega
  | leave statement u size control after =>
    have lower := Machine.leave_depth u s.machine.program
    have same : u.depth = before.machine.depth := by
      unfold Machine.depth
      rw [control]
    rw [after] at deeper
    omega
  | enter statement entered f enterable frame room control =>
    have positive : 0 < first.machine.control.calls.depth := by
      unfold Machine.depth at deeper
      omega
    have low (k : Nat) (hk : k ≤ n) (e : Configuration) (he : after k first = some e) :
        first.machine.control.calls.depth ≤ e.depth :=
      Nat.le_trans (Nat.le_of_eq deeper) (inside k hk e he)
    obtain ⟨orderly₂, place, above⟩ := within_after orderly₁
      ⟨first.machine.control.statement, .base⟩ positive low hn
    have leaving := (orderly₂.follows h.leaves).shift.depth_le
    have top : last.machine.control.calls.depth ≤ first.machine.control.calls.depth :=
      Nat.le_trans leaving (Nat.le_trans (Nat.add_le_add_right h.ended 1) (Nat.le_of_eq deeper.symm))
    have function : first.machine.control.function = entered := by rw [control]; rfl
    rw [function]
    refine ⟨f, enterable, orderly₁, orderly₂, orderly₂.atop.size.trans orderly.atop.size.symm,
      ?_⟩
    intro u statement' hu hc
    have here : u.control = { first.machine.control with statement := statement' } := by
      rw [hc, above.eq_base top]
    rw [control] at here
    rw [Machine.leave_of_save here (by rw [hu]; exact enterable)
      (Memory.length_region enterable.inside)]

/-- After a function, the words of its locals are those before it. If it was left by a return, the
three words of the result are those that the operand named, where none of them is a local. -/
theorem activation_restores (hs : s.Steady) (h : Activation s number before first last left) :
    ∃ f, first.machine.program.function? first.machine.control.function = some f ∧
      (∀ a, f.start.toNat ≤ a → a < f.start.toNat + f.locals.toNat →
        left.machine.store.memory.words[a]? = before.machine.store.memory.words[a]?) ∧
      ∀ frame executed index, last.task = .fetch frame executed index →
        ∃ st, frame.program.statements[index.toNat]? = some st ∧
          (Opcode.ofCode? st.op = some .done ∨ Opcode.ofCode? st.op = some .ret) ∧
          ((∀ r < 3, Address.result + r < f.start.toNat ∨
              f.start.toNat + f.locals.toNat ≤ Address.result + r) →
            ∀ r < 3, left.machine.store.memory.words[Address.result + r]? =
              last.machine.store.memory.words[st.a.toNat + r]?) := by
  obtain ⟨f, enterable, orderly₁, orderly₂, size, restored⟩ := h.saved hs
  have length := Memory.length_region enterable.inside
  have down : left.machine.depth < last.machine.depth := by
    obtain ⟨n, hn, inside⟩ := h.inside
    exact Nat.lt_of_le_of_lt h.ended (inside n (Nat.le_refl n) last hn)
  refine ⟨f, by rw [orderly₁.atop.program]; exact enterable.found, ?_, ?_⟩
  · intro a low high
    cases (orderly₂.follows h.leaves).shift with
    | stay statement control =>
      have same : left.machine.depth = last.machine.depth := by
        unfold Machine.depth
        rw [control]
      omega
    | enter statement entered g _ _ _ control =>
      have up : left.machine.depth = last.machine.depth + 1 := by
        unfold Machine.depth
        rw [control]
        rfl
      omega
    | leave statement u hu control after =>
      have inside : f.start.toNat + (before.machine.store.memory.region f).length ≤
          u.store.memory.words.size := by
        rw [hu, size, length]
        exact enterable.inside
      rw [after, restored u statement (hu.trans size) control,
        Memory.getElem?_setWords _ _ _ _ inside, if_pos (by omega),
        Memory.getElem?_region _ enterable.inside (by omega), Nat.add_sub_cancel' low]
  · intro frame executed index ht
    have program : frame.program = s.machine.program := by
      have fits := orderly₂.fits
      rw [ht] at fits
      exact fits.1
    have leaves := h.leaves
    unfold next at leaves
    rw [ht] at leaves
    have turned : left.machine = (last.machine.turn frame executed index).2 := by
      rw [← Option.some.inj leaves]
      exact fetch_machine ..
    rw [turned] at down
    obtain ⟨st, store, fetched, returns, copied, hl⟩ := Machine.turn_leaves down
    refine ⟨st, fetched, returns, ?_⟩
    intro apart r hr
    have stored : store.memory.words.size = before.machine.store.memory.words.size := by
      have alike := Action.copy_alike st.a.toNat Address.result 3 last.machine.store
      rw [copied] at alike
      exact alike.size.trans size
    have inside : f.start.toNat + (before.machine.store.memory.region f).length ≤
        store.memory.words.size := by
      rw [stored, length]
      exact enterable.inside
    have outside := apart r hr
    have moved := Machine.ran_control last.machine s.machine.program index.toNat store
    have words := restored _ index.toNat stored moved
    rw [turned, hl, program, words, Machine.ran_store, Memory.getElem?_setWords _ _ _ _ inside,
      if_neg (by omega)]
    rw [(Action.copy_ok copied).2.2, if_pos (by omega), Nat.add_sub_cancel_left]

theorem nested_depths :
    (List.range 5).map (fun n => (after n (start 1 Session.nested)).map depth) =
      [some 0, some 1, some 2, some 2, some 1] := by decide +kernel

/-- The second function of the nested calls, which writes over its locals. -/
theorem nested_activation :
    ∃ before first last left, Activation Session.nested 1 before first last left := by
  have depths := nested_depths
  simp only [List.range_succ, List.range_zero, List.nil_append, List.map_cons, List.map_nil,
    List.cons_append, List.cons.injEq, Option.map_eq_some_iff] at depths
  obtain ⟨-, ⟨before, hb, db⟩, ⟨first, hf, df⟩, ⟨last, hl, dl⟩, ⟨left, he, de⟩, -⟩ := depths
  have step {n : Nat} {c d : Configuration} (hc : after n (start 1 Session.nested) = some c)
      (hd : after (n + 1) (start 1 Session.nested) = some d) : c.next = some d := by
    rw [after_succ, hc] at hd
    exact hd
  have one : after 1 first = some last := step hf hl
  refine ⟨before, first, last, left, ⟨1, hb⟩, step hb hf, by omega, ⟨1, one, ?_⟩, step hl he,
    by omega⟩
  intro k hk c hc
  obtain rfl | rfl : k = 0 ∨ k = 1 := by omega
  · cases hc
    omega
  · rw [one] at hc
    cases hc
    omega

theorem nested_activation_restores :
    ∃ before first last left, Activation Session.nested 1 before first last left ∧
      ∃ f, first.machine.program.function? first.machine.control.function = some f ∧
        ∀ a, f.start.toNat ≤ a → a < f.start.toNat + f.locals.toNat →
          left.machine.store.memory.words[a]? = before.machine.store.memory.words[a]? := by
  obtain ⟨before, first, last, left, h⟩ := nested_activation
  obtain ⟨f, found, restored, -⟩ := activation_restores Session.nested_steady h
  exact ⟨before, first, last, left, h, f, found, restored⟩

end Configuration
end GameBytecode
