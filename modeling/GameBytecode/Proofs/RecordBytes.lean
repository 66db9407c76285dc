import GameBytecode.Image.Header

/-!
Records written as bytes and read back. The numbers of 16 and of 32 bits come first, then the records
made of them, then rows of records, and last the header, which is a row of numbers.
-/
namespace GameBytecode
open Text (Bytes)

namespace Record

theorem or_shiftLeft {low width scale : Nat} (h : low < scale) (hs : 1 <<< width = scale)
    (high : Nat) : low ||| high <<< width = low + high * scale := by
  subst hs
  rw [Nat.one_shiftLeft] at h ⊢
  rw [Nat.or_comm, ← Nat.shiftLeft_add_eq_or_of_lt h, Nat.shiftLeft_eq, Nat.add_comm]

theorem toNat_join16 (a b : UInt8) :
    (a.toUInt16 ||| (b.toUInt16 <<< 8)).toNat = a.toNat + b.toNat * 0x100 := by
  have ha : a.toNat < 0x100 := a.toNat_lt
  have hb : b.toNat < 0x100 := b.toNat_lt
  have placed : (b.toUInt16 <<< 8).toNat = b.toNat <<< 8 := by
    rw [UInt16.toNat_shiftLeft]
    apply Nat.mod_eq_of_lt
    change b.toNat <<< 8 < 0x10000
    rw [Nat.shiftLeft_eq]
    omega
  rw [UInt16.toNat_or, placed, UInt8.toNat_toUInt16, or_shiftLeft ha rfl]

/-- A byte keeps all its bits in any of the four places of a word. -/
theorem toNat_place32 (a : UInt8) {width : UInt32} {k : Nat} (hw : width.toNat = k) (hk : k ≤ 24) :
    (a.toUInt32 <<< width).toNat = a.toNat <<< k := by
  have ha : a.toNat < 2 ^ 8 := a.toNat_lt
  have inside : a.toNat <<< k < 2 ^ 32 := by
    rw [Nat.shiftLeft_eq]
    calc a.toNat * 2 ^ k
      _ < 2 ^ 8 * 2 ^ k := Nat.mul_lt_mul_of_pos_right ha (Nat.two_pow_pos k)
      _ ≤ 2 ^ 8 * 2 ^ 24 := Nat.mul_le_mul_left _ (Nat.pow_le_pow_right (by decide) hk)
  have short : k % 32 = k := Nat.mod_eq_of_lt (by omega)
  rw [UInt32.toNat_shiftLeft, hw, short, UInt8.toNat_toUInt32, Nat.mod_eq_of_lt inside]

theorem toNat_join32 (a b c d : UInt8) :
    (a.toUInt32 ||| (b.toUInt32 <<< 8) ||| (c.toUInt32 <<< 16) ||| (d.toUInt32 <<< 24)).toNat =
      a.toNat + b.toNat * 0x100 + c.toNat * 0x10000 + d.toNat * 0x1000000 := by
  have ha : a.toNat < 0x100 := a.toNat_lt
  have hb : b.toNat < 0x100 := b.toNat_lt
  have hc : c.toNat < 0x100 := c.toNat_lt
  have low : a.toNat + b.toNat * 0x100 < 0x10000 := by omega
  have middle : a.toNat + b.toNat * 0x100 + c.toNat * 0x10000 < 0x1000000 := by omega
  simp only [UInt32.toNat_or, UInt8.toNat_toUInt32]
  rw [toNat_place32 b (k := 8) rfl (by decide), toNat_place32 c (k := 16) rfl (by decide),
    toNat_place32 d (k := 24) rfl (by decide), or_shiftLeft ha rfl, or_shiftLeft low rfl,
    or_shiftLeft middle rfl]

theorem join16 (n : UInt16) : n.toUInt8.toUInt16 ||| ((n >>> 8).toUInt8.toUInt16 <<< 8) = n := by
  have hn : n.toNat < 0x10000 := n.toNat_lt
  have high : (n >>> 8).toNat = n.toNat / 0x100 := by
    rw [UInt16.toNat_shiftRight]
    exact Nat.shiftRight_eq_div_pow n.toNat 8
  apply UInt16.toNat_inj.mp
  rw [toNat_join16, UInt16.toNat_toUInt8, UInt16.toNat_toUInt8, high]
  omega

theorem toNat_shiftRight32 (n : UInt32) {width : UInt32} {k : Nat} (hw : width.toNat = k)
    (hk : k < 32) : (n >>> width).toNat = n.toNat / 1 <<< k := by
  rw [UInt32.toNat_shiftRight, hw, Nat.mod_eq_of_lt hk, Nat.shiftRight_eq_div_pow,
    Nat.one_shiftLeft]

theorem toNat_bytes32 (n : UInt32) :
    n.toUInt8.toNat = n.toNat % 0x100 ∧ (n >>> 8).toUInt8.toNat = n.toNat / 0x100 % 0x100 ∧
      (n >>> 16).toUInt8.toNat = n.toNat / 0x10000 % 0x100 ∧
      (n >>> 24).toUInt8.toNat = n.toNat / 0x1000000 % 0x100 := by
  refine ⟨UInt32.toNat_toUInt8 n, ?_, ?_, ?_⟩
  · rw [UInt32.toNat_toUInt8, toNat_shiftRight32 n (k := 8) rfl (by decide)]
    rfl
  · rw [UInt32.toNat_toUInt8, toNat_shiftRight32 n (k := 16) rfl (by decide)]
    rfl
  · rw [UInt32.toNat_toUInt8, toNat_shiftRight32 n (k := 24) rfl (by decide)]
    rfl

theorem join32 (n : UInt32) :
    n.toUInt8.toUInt32 ||| ((n >>> 8).toUInt8.toUInt32 <<< 8) |||
      ((n >>> 16).toUInt8.toUInt32 <<< 16) ||| ((n >>> 24).toUInt8.toUInt32 <<< 24) = n := by
  have hn : n.toNat < 0x100000000 := n.toNat_lt
  obtain ⟨h0, h1, h2, h3⟩ := toNat_bytes32 n
  apply UInt32.toNat_inj.mp
  rw [toNat_join32, h0, h1, h2, h3]
  omega

theorem split32 (a b c d : UInt8) :
    ofUInt32 (a.toUInt32 ||| (b.toUInt32 <<< 8) ||| (c.toUInt32 <<< 16) ||| (d.toUInt32 <<< 24)) =
      [a, b, c, d] := by
  have ha : a.toNat < 0x100 := a.toNat_lt
  have hb : b.toNat < 0x100 := b.toNat_lt
  have hc : c.toNat < 0x100 := c.toNat_lt
  have hd : d.toNat < 0x100 := d.toNat_lt
  have joined := toNat_join32 a b c d
  generalize a.toUInt32 ||| (b.toUInt32 <<< 8) ||| (c.toUInt32 <<< 16) ||| (d.toUInt32 <<< 24) = n
    at joined
  obtain ⟨h0, h1, h2, h3⟩ := toNat_bytes32 n
  simp only [ofUInt32, List.cons.injEq, and_true, ← UInt8.toNat_inj]
  rw [h0, h1, h2, h3]
  omega

@[simp] theorem length_ofUInt16 (n : UInt16) : (ofUInt16 n).length = 2 := rfl

@[simp] theorem length_ofUInt32 (n : UInt32) : (ofUInt32 n).length = 4 := rfl

theorem toUInt32_take (bytes : Bytes) (offset : Nat) :
    toUInt32 ((bytes.drop offset).take 4) 0 = toUInt32 bytes offset := by
  simp only [toUInt32, List.drop_zero]
  match bytes.drop offset with
  | [] | [_] | [_, _] | [_, _, _] | _ :: _ :: _ :: _ :: _ => rfl

/-- Records of a kind are written in a number of bytes, and read back as they were. -/
structure Readable {α : Type} (size : Nat) (write : α → Bytes) (read : Bytes → α) : Prop where
  length_write : ∀ x, (write x).length = size
  read_write : ∀ x, read (write x) = x

theorem readable_byte : Readable 1 (fun b : UInt8 => [b]) (·.headD 0) :=
  ⟨fun _ => rfl, fun _ => rfl⟩

theorem readable_word : Readable 4 ofUInt32 (toUInt32 · 0) :=
  ⟨length_ofUInt32, join32⟩

section rows
variable {α : Type} {size : Nat} {write : α → Bytes} {read : Bytes → α}

theorem Readable.length_flatMap (h : Readable size write read) (xs : List α) :
    (xs.flatMap write).length = xs.length * size := by
  induction xs with
  | nil => simp
  | cons x xs ih => rw [List.flatMap_cons, List.length_append, h.length_write, ih, List.length_cons,
      Nat.succ_mul, Nat.add_comm]

/-- A row of records is read back as it was written. -/
theorem Readable.many_flatMap (h : Readable size write read) (xs : List α) (rest : Bytes) :
    many size read xs.length (xs.flatMap write ++ rest) = xs := by
  induction xs with
  | nil => rfl
  | cons x xs ih =>
    simp only [List.length_cons, List.flatMap_cons, List.append_assoc, many]
    rw [← h.length_write x, List.take_left, List.drop_left, h.read_write, h.length_write x, ih]

theorem flatMap_many (write_read : ∀ b : Bytes, b.length = size → write (read b) = b) {count : Nat}
    {bytes : Bytes} (h : bytes.length = count * size) :
    (many size read count bytes).flatMap write = bytes := by
  induction count generalizing bytes with
  | zero =>
    rw [Nat.zero_mul] at h
    rw [List.eq_nil_of_length_eq_zero h]
    rfl
  | succ count ih =>
    rw [Nat.succ_mul] at h
    have first : (bytes.take size).length = size := by
      rw [List.length_take]
      omega
    have others : (bytes.drop size).length = count * size := by
      rw [List.length_drop]
      omega
    simp only [many, List.flatMap_cons]
    rw [write_read _ first, ih others, List.take_append_drop]

end rows

theorem ofUInt32_toUInt32 {bytes : Bytes} (h : bytes.length = 4) :
    ofUInt32 (toUInt32 bytes 0) = bytes := by
  match bytes, h with
  | [a, b, c, d], _ => exact split32 a b c d

end Record

open Record

theorem Statement.readable : Readable Statement.size Statement.bytes Statement.read where
  length_write _ := rfl
  read_write s := by
    obtain ⟨op, a, b, c⟩ := s
    simp only [read, mk.injEq]
    exact ⟨join16 op, join16 a, join16 b, join16 c⟩

theorem Def.readable : Readable Def.size Def.bytes Def.read where
  length_write _ := rfl
  read_write d := by
    obtain ⟨tag, offset, name⟩ := d
    simp only [read, mk.injEq]
    refine ⟨join16 tag, join16 offset, ?_⟩
    exact (congrArg UInt32.toInt32 (join32 name.toUInt32)).trans (Int32.toInt32_toUInt32 name)

theorem FunctionRecord.readable :
    Readable FunctionRecord.size FunctionRecord.bytes FunctionRecord.read where
  length_write f := by
    simp only [bytes, List.length_append, length_ofUInt32, Vector.length_toList]
    rfl
  read_write f := by
    obtain ⟨entry, start, locals, profile, name, file, arity, sizes⟩ := f
    have signed (n : Int32) (m : UInt32) (h : m = n.toUInt32) : m.toInt32 = n := by
      rw [h, Int32.toInt32_toUInt32]
    simp only [read, mk.injEq]
    refine ⟨signed _ _ (join32 _), join32 start, join32 locals, join32 profile,
      signed _ _ (join32 _), signed _ _ (join32 _), signed _ _ (join32 _), ?_⟩
    apply Vector.ext
    intro i hi
    rw [Vector.getElem_ofFn]
    change sizes.toList.getD i 0 = sizes[i]
    rw [List.getD_eq_getElem?_getD, Vector.getElem?_toList, Vector.getElem?_eq_getElem hi]
    rfl

namespace Header

theorem toList_injective {h h' : Header} (same : h.toList = h'.toList) : h = h' := by
  obtain ⟨version, checksum, ⟨s, ns⟩, ⟨g, ng⟩, ⟨f, nf⟩, ⟨p, np⟩, ⟨t, nt⟩, ⟨w, nw⟩, fields⟩ := h
  simp only [toList, List.cons.injEq] at same
  obtain ⟨rfl, rfl, rfl, rfl, rfl, rfl, rfl, rfl, rfl, rfl, rfl, rfl, rfl, rfl, rfl, -⟩ := same
  rfl

theorem length_toList (h : Header) : h.toList.length = 15 := rfl

theorem length_bytes (h : Header) : h.bytes.length = size := by
  simp only [bytes]
  rw [readable_word.length_flatMap, length_toList]
  rfl

theorem toList_read (b : Bytes) : (read b).toList = many 4 (toUInt32 · 0) 15 b := by
  have at_front : toUInt32 (b.take 4) 0 = toUInt32 b 0 := toUInt32_take b 0
  simp only [many, read, toList, List.drop_drop, toUInt32_take, at_front]

/-- A header is read back from its bytes, whatever follows them. -/
theorem read_append (h : Header) (rest : Bytes) : read (h.bytes ++ rest) = h := by
  apply toList_injective
  rw [toList_read]
  exact readable_word.many_flatMap h.toList rest

theorem parse_append (h : Header) (rest : Bytes) : parse (h.bytes ++ rest) = .ok h := by
  have long : ¬ (h.bytes ++ rest).length < size := by
    rw [List.length_append, length_bytes]
    omega
  rw [parse, if_neg long, read_append]

theorem bytes_read {b : Bytes} (h : b.length = size) : (read b).bytes = b := by
  simp only [bytes]
  rw [toList_read]
  exact flatMap_many (fun _ => ofUInt32_toUInt32) h

end Header
end GameBytecode
