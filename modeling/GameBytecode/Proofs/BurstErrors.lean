import GameBytecode.Checksum

/-!
Errors that the checksum detects. The register takes the input in bit by bit, and both that and the
shift respect exclusive or: what two inputs leave in it differs by what their difference leaves in an
empty register. A difference of up to 16 bits is a register that is not empty, and no shift empties it.
-/
namespace GameBytecode.Checksum
open Text (Bytes)

def byteBits (byte : UInt8) : List Bool := List.ofFn fun i : Fin 8 => byte.toBitVec.getMsbD i

def bits (bytes : Bytes) : List Bool := bytes.flatMap byteBits

/-- The register with one bit at its top. -/
def top (bit : Bool) : UInt16 := if bit then 0x8000 else 0

def feed (register : UInt16) (bit : Bool) : UInt16 := shift (register ^^^ top bit)

/-- The register with some bits at its top, the first one uppermost. -/
def window : List Bool → UInt16
  | [] => 0
  | bit :: rest => top bit ^^^ (window rest >>> 1)

section shift

theorem toBitVec_shift (r : UInt16) : (shift r).toBitVec =
    (r.toBitVec <<< 1) ^^^ (if r.toBitVec.msb then 0x1021#16 else 0#16) := by
  have high : 0x8000 ≤ r ↔ r.toBitVec.msb = true := by
    rw [BitVec.msb_eq_decide, decide_eq_true_iff]
    exact Iff.rfl
  unfold shift
  by_cases h : 0x8000 ≤ r
  · rw [if_pos h, if_pos (high.mp h)]
    rfl
  · rw [if_neg h, if_neg (mt high.mpr h), BitVec.xor_zero]
    rfl

theorem shift_xor (r s : UInt16) : shift (r ^^^ s) = shift r ^^^ shift s := by
  have entering : (if (r.toBitVec ^^^ s.toBitVec).msb then 0x1021#16 else 0#16) =
      (if r.toBitVec.msb then 0x1021#16 else 0#16) ^^^
        (if s.toBitVec.msb then 0x1021#16 else 0#16) := by
    rw [BitVec.msb_xor]
    cases r.toBitVec.msb <;> cases s.toBitVec.msb <;> rfl
  apply UInt16.toBitVec_inj.mp
  rw [UInt16.toBitVec_xor, toBitVec_shift, UInt16.toBitVec_xor, entering,
    BitVec.shiftLeft_xor_distrib, toBitVec_shift, toBitVec_shift]
  ac_rfl

/-- Only an empty register is empty after a shift: the polynomial, which enters whenever a bit is
lost, has a constant term. -/
theorem eq_zero_of_shift {r : UInt16} (h : shift r = 0) : r = 0 := by
  have shifted : (shift r).toBitVec = 0#16 := congrArg UInt16.toBitVec h
  rw [toBitVec_shift] at shifted
  have clear : r.toBitVec.msb = false := by
    have low := congrArg (·.getLsbD 0) shifted
    cases hr : r.toBitVec.msb with
    | false => rfl
    | true => simp [hr] at low
  rw [clear, if_neg Bool.false_ne_true, BitVec.xor_zero] at shifted
  apply UInt16.toBitVec_inj.mp
  apply BitVec.eq_of_getLsbD_eq
  intro i hi
  have empty : (UInt16.toBitVec 0).getLsbD i = false := BitVec.getLsbD_zero
  rw [empty]
  by_cases last : i = 15
  · subst last
    exact clear
  · have moved := congrArg (·.getLsbD (i + 1)) shifted
    have inside : i + 1 < 16 := by omega
    rw [BitVec.getLsbD_shiftLeft] at moved
    simpa [inside] using moved

end shift

section bitwise

theorem top_xor (a b : Bool) : top (a ^^ b) = top a ^^^ top b := by
  cases a <;> cases b <;> rfl

theorem feed_xor (r s : UInt16) (a b : Bool) :
    feed (r ^^^ s) (a ^^ b) = feed r a ^^^ feed s b := by
  rw [feed, feed, feed, ← shift_xor, top_xor]
  congr 1
  ac_rfl

theorem foldl_feed_xor {u v : List Bool} (length : u.length = v.length) (r s : UInt16) :
    (List.zipWith xor u v).foldl feed (r ^^^ s) = u.foldl feed r ^^^ v.foldl feed s := by
  induction u generalizing v r s with
  | nil =>
    cases v with
    | nil => rfl
    | cons b v => cases length
  | cons a u ih =>
    cases v with
    | nil => cases length
    | cons b v =>
      rw [List.zipWith_cons_cons, List.foldl_cons, List.foldl_cons, List.foldl_cons, feed_xor]
      exact ih (Nat.succ.inj length) _ _

theorem feed_false (r : UInt16) : feed r false = shift r := by
  rw [feed, top, if_neg Bool.false_ne_true, UInt16.xor_zero]

theorem eq_zero_of_quiet {r : UInt16} {d : List Bool} (quiet : ∀ bit ∈ d, bit = false)
    (h : d.foldl feed r = 0) : r = 0 := by
  induction d generalizing r with
  | nil => exact h
  | cons bit d ih =>
    have first : bit = false := quiet bit List.mem_cons_self
    rw [List.foldl_cons, first, feed_false] at h
    exact eq_zero_of_shift (ih (fun b hb => quiet b (List.mem_cons_of_mem _ hb)) h)

theorem toBitVec_top (bit : Bool) (i : Nat) :
    (top bit).toBitVec.getMsbD i = (decide (i = 0) && bit) := by
  cases bit with
  | false =>
    rw [Bool.and_false]
    exact BitVec.getMsbD_zero
  | true =>
    have only := BitVec.getMsbD_intMin (w := 16) (i := i)
    rw [Bool.and_true]
    exact only

theorem getMsbD_window (e : List Bool) (i : Nat) :
    (window e).toBitVec.getMsbD i = (decide (i < 16) && e.getD i false) := by
  induction e generalizing i with
  | nil =>
    rw [List.getD_nil, Bool.and_false]
    exact BitVec.getMsbD_zero
  | cons b e ih =>
    have lower : (window e >>> 1).toBitVec = (window e).toBitVec >>> 1 := rfl
    rw [window, UInt16.toBitVec_xor, BitVec.getMsbD_xor, toBitVec_top, lower,
      BitVec.getMsbD_ushiftRight, ih]
    cases i with
    | zero => simp
    | succ i =>
      have later : i + 1 < 16 → i < 16 := by omega
      by_cases inside : i + 1 < 16 <;> simp [inside, later]

/-- A window with a place left at the bottom is there again when its bits come to the top. -/
theorem shift_window {e : List Bool} (short : e.length < 16) :
    shift (window e >>> 1) = window e := by
  have lower : (window e >>> 1).toBitVec = (window e).toBitVec >>> 1 := rfl
  have clear : ((window e).toBitVec >>> 1).msb = false := by simp
  apply UInt16.toBitVec_inj.mp
  rw [toBitVec_shift, lower, clear, if_neg Bool.false_ne_true, BitVec.xor_zero]
  apply BitVec.eq_of_getMsbD_eq
  intro i hi
  rw [BitVec.getMsbD_shiftLeft, BitVec.getMsbD_ushiftRight, getMsbD_window, getMsbD_window]
  by_cases inside : i + 1 < 16
  · simp [inside, hi]
  · have past : e.length ≤ i := by omega
    simp [inside, past]

/-- Taking in up to 16 bits is putting them on top of the register and shifting them out. -/
theorem foldl_feed_window {e : List Bool} (short : e.length ≤ 16) (r : UInt16) :
    e.foldl feed r = (List.replicate e.length false).foldl feed (r ^^^ window e) := by
  induction e generalizing r with
  | nil => exact (UInt16.xor_zero).symm
  | cons b e ih =>
    have room : e.length < 16 := short
    have taken : feed (r ^^^ window (b :: e)) false = feed r b ^^^ window e := by
      calc feed (r ^^^ window (b :: e)) false
        _ = shift (r ^^^ top b ^^^ (window e >>> 1)) := by
          rw [feed_false, window, UInt16.xor_assoc]
        _ = feed r b ^^^ window e := by rw [shift_xor, shift_window room, feed]
    rw [List.foldl_cons, ih (Nat.le_of_lt room), List.length_cons, List.replicate_succ,
      List.foldl_cons, taken]

end bitwise

theorem length_byteBits (byte : UInt8) : (byteBits byte).length = 8 := List.length_ofFn

theorem getD_byteBits (byte : UInt8) (i : Nat) :
    (byteBits byte).getD i false = byte.toBitVec.getMsbD i := by
  rw [byteBits, List.getD_eq_getElem?_getD, List.getElem?_ofFn]
  split
  · rfl
  · rename_i outside
    exact (BitVec.getMsbD_of_ge _ _ (Nat.not_lt.mp outside)).symm

theorem byteBits_injective {a b : UInt8} (h : byteBits a = byteBits b) : a = b := by
  apply UInt8.toBitVec_inj.mp
  apply BitVec.eq_of_getMsbD_eq
  intro i hi
  rw [← getD_byteBits, ← getD_byteBits, h]

theorem window_byteBits (byte : UInt8) : window (byteBits byte) = byte.toUInt16 <<< 8 := by
  have placed : (byte.toUInt16 <<< 8).toBitVec = (byte.toBitVec.setWidth 16) <<< 8 := rfl
  apply UInt16.toBitVec_inj.mp
  rw [placed]
  apply BitVec.eq_of_getMsbD_eq
  intro i hi
  rw [getMsbD_window, getD_byteBits, BitVec.getMsbD_shiftLeft, BitVec.getMsbD_setWidth]
  simp [hi]

theorem next_eq_foldl (r : UInt16) (byte : UInt8) : next r byte = (byteBits byte).foldl feed r := by
  have eight : (byteBits byte).length ≤ 16 := by
    rw [length_byteBits]
    decide
  rw [foldl_feed_window eight, window_byteBits, length_byteBits, next]
  simp only [List.replicate, List.foldl_cons, List.foldl_nil, feed_false, Nat.repeat]

theorem foldl_next_eq (bytes : Bytes) (r : UInt16) :
    bytes.foldl next r = (bits bytes).foldl feed r := by
  induction bytes generalizing r with
  | nil => rfl
  | cons byte bytes ih =>
    rw [List.foldl_cons, next_eq_foldl, ih, bits, bits, List.flatMap_cons, List.foldl_append]

theorem bits_cons (byte : UInt8) (bytes : Bytes) : bits (byte :: bytes) = byteBits byte ++ bits bytes :=
  List.flatMap_cons

theorem length_bits (bytes : Bytes) : (bits bytes).length = 8 * bytes.length := by
  induction bytes with
  | nil => rfl
  | cons byte bytes ih =>
    rw [bits_cons, List.length_append, length_byteBits, ih, List.length_cons]
    omega

theorem length_of_bits {x y : Bytes} (h : bits x = bits y) : x.length = y.length := by
  have length := congrArg List.length h
  rw [length_bits, length_bits] at length
  exact Nat.eq_of_mul_eq_mul_left (by decide) length

theorem bits_injective {x y : Bytes} (h : bits x = bits y) : x = y := by
  have length := length_of_bits h
  induction x generalizing y with
  | nil => exact (List.eq_nil_of_length_eq_zero length.symm).symm
  | cons a x ih =>
    cases y with
    | nil => cases length
    | cons b y =>
      rw [bits_cons, bits_cons] at h
      obtain ⟨first, rest⟩ := List.append_inj h ((length_byteBits a).trans (length_byteBits b).symm)
      rw [byteBits_injective first, ih rest (Nat.succ.inj length)]

/-- Bits that lie within 16 places leave the register empty only if none of them is set. -/
theorem quiet_of_foldl_feed {d : List Bool} {p : Nat}
    (within : ∀ i, d[i]? = some true → p ≤ i ∧ i < p + 16) (h : d.foldl feed 0 = 0) :
    ∀ bit ∈ d, bit = false := by
  induction p generalizing d with
  | zero =>
    have behind : ∀ bit ∈ d.drop 16, bit = false := by
      intro bit member
      obtain ⟨i, found⟩ := List.mem_iff_getElem?.mp member
      rw [List.getElem?_drop] at found
      cases bit with
      | false => rfl
      | true =>
        have near := (within _ found).2
        omega
    have short : (d.take 16).length ≤ 16 := List.length_take_le 16 d
    -- What stands in the register after the 16 places is the bits themselves, shifted out.
    rw [← List.take_append_drop 16 d, List.foldl_append] at h
    have emptied := eq_zero_of_quiet behind h
    rw [foldl_feed_window short] at emptied
    have empty := eq_zero_of_quiet (fun _ => List.eq_of_mem_replicate) emptied
    rw [UInt16.zero_xor] at empty
    intro bit member
    rw [← List.take_append_drop 16 d] at member
    rcases List.mem_append.mp member with front | back
    · obtain ⟨i, found⟩ := List.mem_iff_getElem?.mp front
      have inside : i < 16 := Nat.lt_of_lt_of_le (List.getElem?_eq_some_iff.mp found).1 short
      have read := getMsbD_window (d.take 16) i
      rw [empty, List.getD_eq_getElem?_getD, found] at read
      simpa [inside] using read.symm
    · exact behind bit back
  | succ p ih =>
    cases d with
    | nil => exact fun _ member => absurd member List.not_mem_nil
    | cons bit d =>
      have first : bit = false := by
        cases bit with
        | false => rfl
        | true => exact absurd (within 0 rfl).1 (Nat.not_succ_le_zero p)
      subst first
      have later (i : Nat) (set : d[i]? = some true) : p ≤ i ∧ i < p + 16 := by
        have near := within (i + 1) set
        omega
      have rest := ih later h
      intro b member
      rcases List.mem_cons.mp member with rfl | member
      · rfl
      · exact rest b member

theorem eq_of_difference {x y : Bytes} (length : x.length = y.length)
    (quiet : ∀ bit ∈ List.zipWith xor (bits x) (bits y), bit = false) : x = y := by
  have long : (bits x).length = (bits y).length := by rw [length_bits, length_bits, length]
  apply bits_injective
  apply List.ext_getElem long
  intro i hx hy
  have same := quiet _ (List.mem_of_getElem? (i := i) (by
    rw [List.getElem?_zipWith, List.getElem?_eq_getElem hx, List.getElem?_eq_getElem hy]))
  simpa using same

/-- Two inputs of one length that differ, and only within 16 consecutive bits, have different
checksums. -/
theorem burst_detected {x y : Bytes} (length : x.length = y.length) (differ : x ≠ y) {p : Nat}
    (within : ∀ i, (bits x)[i]? ≠ (bits y)[i]? → p ≤ i ∧ i < p + 16) : crc16 x ≠ crc16 y := by
  intro same
  have long : (bits x).length = (bits y).length := by rw [length_bits, length_bits, length]
  have emptied : (List.zipWith xor (bits x) (bits y)).foldl feed 0 = 0 := by
    have left := foldl_feed_xor long 0xffff 0xffff
    rw [← foldl_next_eq, ← foldl_next_eq, UInt16.xor_self] at left
    rw [left]
    exact UInt16.xor_eq_zero_iff.mpr same
  have near (i : Nat) (set : (List.zipWith xor (bits x) (bits y))[i]? = some true) :
      p ≤ i ∧ i < p + 16 := by
    apply within
    intro equal
    rw [List.getElem?_zipWith, equal] at set
    cases hy : (bits y)[i]? <;> simp [hy] at set
  exact differ (eq_of_difference length (quiet_of_foldl_feed near emptied))

/-- Four bytes, and the same with the bits 5, 11 and 20 changed. -/
def sent : Bytes := [0x12, 0x34, 0x56, 0x78]
def received : Bytes := [0x16, 0x24, 0x5e, 0x78]

theorem received_within (i : Nat) (differ : (bits sent)[i]? ≠ (bits received)[i]?) :
    5 ≤ i ∧ i < 5 + 16 := by
  have inside : ∀ i < 32, (bits sent)[i]? ≠ (bits received)[i]? → 5 ≤ i ∧ i < 5 + 16 := by decide
  by_cases h : i < 32
  · exact inside i h differ
  · have past : 32 ≤ i := Nat.not_lt.mp h
    have sent_ends : (bits sent)[i]? = none := List.getElem?_eq_none past
    have received_ends : (bits received)[i]? = none := List.getElem?_eq_none past
    exact absurd (sent_ends.trans received_ends.symm) differ

/-- An error across three bytes is detected. -/
theorem received_detected : sent ≠ received ∧
    (∀ i, (bits sent)[i]? ≠ (bits received)[i]? → 5 ≤ i ∧ i < 5 + 16) ∧
    crc16 sent ≠ crc16 received := by
  have differ : sent ≠ received := by decide
  exact ⟨differ, received_within, burst_detected rfl differ received_within⟩

end GameBytecode.Checksum
