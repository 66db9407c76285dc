import GameBytecode.Text.Utf8

/-!
Text written as bytes and read back. A character is written in one to four bytes, and each of the four
forms is read as that character, whatever bytes follow it.
-/
namespace GameBytecode.Text

theorem utf8_eq (s : String) : utf8 s = s.toList.flatMap String.utf8EncodeChar := by
  have encoded : s.toUTF8 = s.toList.utf8Encode := String.utf8Encode_toList.symm
  rw [utf8, encoded, List.utf8Encode, List.data_toByteArray]

section sequences
variable {a b c d : UInt8} (rest : Bytes)

theorem between_iff {m n : UInt8} :
    (decide (m ≤ a) && decide (a < n)) = true ↔ m.toNat ≤ a.toNat ∧ a.toNat < n.toNat := by
  simp only [Bool.and_eq_true, decide_eq_true_eq]
  exact Iff.rfl

theorem isContinuation_iff : isContinuation b = true ↔ 0x80 ≤ b.toNat ∧ b.toNat < 0xc0 :=
  between_iff

theorem decodeUtf8_one (ha : a.toNat < 0x80) :
    decodeUtf8 (a :: rest) = Char.ofNat a.toNat :: decodeUtf8 rest := by
  rw [decodeUtf8.eq_def]
  exact if_pos ha

theorem not_single (ha : 0x80 ≤ a.toNat) : ¬ a < 0x80 := Nat.not_lt.mpr ha

theorem not_between {m n : UInt8} (ha : n.toNat ≤ a.toNat) :
    ¬ (decide (m ≤ a) && decide (a < n)) = true :=
  fun h => absurd (between_iff.mp h).2 (Nat.not_lt.mpr ha)

theorem decodeUtf8_two (ha : 0xc2 ≤ a.toNat ∧ a.toNat < 0xe0) (hb : isContinuation b) :
    decodeUtf8 (a :: b :: rest) =
      Char.ofNat (a.toNat % 32 * 64 + b.toNat % 64) :: decodeUtf8 rest := by
  have high : ¬ a < 0x80 := not_single (by omega)
  have lead : (decide (0xc2 ≤ a) && decide (a < 0xe0)) = true := between_iff.mpr ha
  rw [decodeUtf8.eq_def]
  dsimp only
  rw [if_neg high, if_pos lead]
  exact if_pos hb

theorem decodeUtf8_three (ha : 0xe0 ≤ a.toNat ∧ a.toNat < 0xf0) (hb : mayFollow a b)
    (hc : isContinuation c) :
    decodeUtf8 (a :: b :: c :: rest) =
      Char.ofNat (a.toNat % 16 * 4096 + b.toNat % 64 * 64 + c.toNat % 64) :: decodeUtf8 rest := by
  have high : ¬ a < 0x80 := not_single (by omega)
  have longer : ¬ (decide (0xc2 ≤ a) && decide (a < 0xe0)) = true := not_between ha.1
  have lead : (decide (0xe0 ≤ a) && decide (a < 0xf0)) = true := between_iff.mpr ha
  rw [decodeUtf8.eq_def]
  dsimp only
  rw [if_neg high, if_neg longer, if_pos lead, if_pos hb]
  exact if_pos hc

theorem decodeUtf8_four (ha : 0xf0 ≤ a.toNat ∧ a.toNat < 0xf5) (hb : mayFollow a b)
    (hc : isContinuation c) (hd : isContinuation d) :
    decodeUtf8 (a :: b :: c :: d :: rest) =
      Char.ofNat (a.toNat % 8 * 262144 + b.toNat % 64 * 4096 + c.toNat % 64 * 64 + d.toNat % 64) ::
        decodeUtf8 rest := by
  have high : ¬ a < 0x80 := not_single (by omega)
  have longer : ¬ (decide (0xc2 ≤ a) && decide (a < 0xe0)) = true :=
    not_between (Nat.le_trans (by decide) ha.1)
  have longest : ¬ (decide (0xe0 ≤ a) && decide (a < 0xf0)) = true := not_between ha.1
  have lead : (decide (0xf0 ≤ a) && decide (a < 0xf5)) = true := between_iff.mpr ha
  rw [decodeUtf8.eq_def]
  dsimp only
  rw [if_neg high, if_neg longer, if_neg longest, if_pos lead, if_pos hb, if_pos hc]
  exact if_pos hd

/-- The second byte of a longer sequence, by the four first bytes that ask more of it. -/
theorem mayFollow_of (hb : 0x80 ≤ b.toNat ∧ b.toNat < 0xc0)
    (not_overlong : a.toNat = 0xe0 → 0xa0 ≤ b.toNat) (no_surrogate : a.toNat = 0xed → b.toNat < 0xa0)
    (not_short : a.toNat = 0xf0 → 0x90 ≤ b.toNat) (not_past : a.toNat = 0xf4 → b.toNat < 0x90) :
    mayFollow a b := by
  have first (n : UInt8) : (a == n) = true ↔ a.toNat = n.toNat := by
    rw [beq_iff_eq, UInt8.toNat_inj]
  unfold mayFollow
  simp only [first, UInt8.reduceToNat]
  split
  case isTrue h => exact between_iff.mpr ⟨not_overlong h, hb.2⟩
  case isFalse =>
    split
    case isTrue h => exact between_iff.mpr ⟨hb.1, no_surrogate h⟩
    case isFalse =>
      split
      case isTrue h => exact between_iff.mpr ⟨not_short h, hb.2⟩
      case isFalse =>
        split
        case isTrue h => exact between_iff.mpr ⟨hb.1, not_past h⟩
        case isFalse => exact isContinuation_iff.mpr hb

end sequences

theorem toNat_placed (n : Nat) {m b : Nat} (positive : 0 < m) (fits : m + b ≤ 0x100) :
    (UInt8.ofNat (n % m + b)).toNat = n % m + b := by
  have less : n % m < m := Nat.mod_lt n positive
  exact UInt8.toNat_ofNat_of_lt' (Nat.lt_of_lt_of_le (Nat.add_lt_add_right less b) fits)

theorem isContinuation_placed (n : Nat) : isContinuation (UInt8.ofNat (n % 0x40 + 0x80)) := by
  have placed := toNat_placed n (m := 0x40) (b := 0x80) (by decide) (by decide)
  exact isContinuation_iff.mpr (by omega)

theorem decodeUtf8_encode (c : Char) (rest : Bytes) :
    decodeUtf8 (String.utf8EncodeChar c ++ rest) = c :: decodeUtf8 rest := by
  -- A code point is no surrogate, and none is past the last.
  have valid : c.toNat < 0xd800 ∨ (0xdfff < c.toNat ∧ c.toNat < 0x110000) := c.valid
  have same {n : Nat} (h : n = c.toNat) : Char.ofNat n = c := by rw [h, Char.ofNat_toNat]
  unfold String.utf8EncodeChar
  simp only [show c.val.toNat = c.toNat from rfl]
  generalize c.toNat = v at valid same
  have last := toNat_placed v (m := 0x40) (b := 0x80) (by decide) (by decide)
  have middle := toNat_placed (v / 64) (m := 0x40) (b := 0x80) (by decide) (by decide)
  split
  case isTrue one =>
    have first : (UInt8.ofNat v).toNat = v :=
      UInt8.toNat_ofNat_of_lt' (Nat.lt_of_le_of_lt one (by decide))
    rw [List.singleton_append, decodeUtf8_one rest (by omega), first, same rfl]
  case isFalse =>
    split
    case isTrue two =>
      have first := toNat_placed (v / 64) (m := 0x20) (b := 0xc0) (by decide) (by decide)
      rw [List.cons_append, List.singleton_append,
        decodeUtf8_two rest (by omega) (isContinuation_placed v), first, last, same (by omega)]
    case isFalse =>
      split
      case isTrue three =>
        have first := toNat_placed (v / 4096) (m := 0x10) (b := 0xe0) (by decide) (by decide)
        have follows : mayFollow (UInt8.ofNat (v / 4096 % 0x10 + 0xe0))
            (UInt8.ofNat (v / 64 % 0x40 + 0x80)) :=
          mayFollow_of (by omega) (by omega) (by omega) (by omega) (by omega)
        rw [List.cons_append, List.cons_append, List.singleton_append,
          decodeUtf8_three rest (by omega) follows (isContinuation_placed v), first, middle, last,
          same (by omega)]
      case isFalse =>
        have first := toNat_placed (v / 262144) (m := 0x08) (b := 0xf0) (by decide) (by decide)
        have second := toNat_placed (v / 4096) (m := 0x40) (b := 0x80) (by decide) (by decide)
        have follows : mayFollow (UInt8.ofNat (v / 262144 % 0x08 + 0xf0))
            (UInt8.ofNat (v / 4096 % 0x40 + 0x80)) :=
          mayFollow_of (by omega) (by omega) (by omega) (by omega) (by omega)
        rw [List.cons_append, List.cons_append, List.cons_append, List.singleton_append,
          decodeUtf8_four rest (by omega) follows (isContinuation_placed (v / 64))
            (isContinuation_placed v), first, second, middle, last, same (by omega)]

/-- Text is read from the bytes it is written in. -/
theorem ofUtf8_utf8 (s : String) : ofUtf8 (utf8 s) = s := by
  have read (cs : List Char) : decodeUtf8 (cs.flatMap String.utf8EncodeChar) = cs := by
    induction cs with
    | nil => rw [List.flatMap_nil, decodeUtf8.eq_def]
    | cons c cs ih => rw [List.flatMap_cons, decodeUtf8_encode, ih]
  rw [ofUtf8, utf8_eq, read, String.ofList_toList]

end GameBytecode.Text
