import GameBytecode.Operation
import GameBytecode.Value

/-!
Quotients and remainders of integers. They make up the dividend again in wrapping arithmetic, also where
the quotient itself wraps, which it does for the least integer over minus one. No other operation on
integers than these two can fail, and they fail for zero alone.
-/
namespace GameBytecode

namespace Arithmetic
open Word

section laws

/-- The quotient is taken modulo 2^32, and so is its product with the divisor. -/
theorem signed_law (a b : Int32) : a / b * b + a % b = a := by
  apply Int32.toInt_inj.mp
  rw [Int32.toInt_add, Int32.toInt_mul, Int32.toInt_div, Int32.toInt_mod, Int.bmod_mul_bmod,
    Int.bmod_add_bmod, Int.mul_comm, Int.add_comm, Int.tmod_add_mul_tdiv]
  exact Int32.toInt_bmod a

theorem unsigned_law (a b : Word) : a / b * b + a % b = a := by
  apply UInt32.toNat_inj.mp
  rw [UInt32.toNat_add, UInt32.toNat_mul, UInt32.toNat_div, UInt32.toNat_mod, Nat.mod_add_mod,
    Nat.div_add_mod']
  exact Nat.mod_eq_of_lt a.toNat_lt

theorem natAbs_remainder_lt (a : Int32) {b : Int32} (h : b ≠ 0) :
    (a % b).toInt.natAbs < b.toInt.natAbs := by
  have nonzero : b.toInt ≠ 0 := fun zero => h (Int32.toInt_inj.mp zero)
  rw [Int32.toInt_mod, Int.natAbs_tmod]
  exact Nat.mod_lt _ (Int.natAbs_pos.mpr nonzero)

theorem sign_remainder (a b : Int32) :
    (a % b).toInt = 0 ∨ (a % b).toInt.sign = a.toInt.sign := by
  rw [Int32.toInt_mod]
  by_cases divides : b.toInt ∣ a.toInt
  · exact .inl (Int.tmod_eq_zero_of_dvd divides)
  · exact .inr ((Int.sign_tmod ..).trans (if_neg divides))

end laws

/-- A quotient and a remainder that the opcodes of a kind of number give, and from which they give the
dividend again. -/
structure Divided (substitute : Bool) (kind : Numeric) (a b quotient remainder : Word) : Prop where
  divides : (Opcode.arithmetic kind .div).compute substitute kind a b = .ok quotient
  leaves : (Opcode.arithmetic kind .mod).compute substitute kind a b = .ok remainder
  law : ∃ product, (Opcode.arithmetic kind .mul).compute substitute kind quotient b = .ok product ∧
    (Opcode.arithmetic kind .add).compute substitute kind product remainder = .ok a

section opcodes
variable {substitute : Bool} {a b : Word}

theorem toInt32_eq_zero : b.toInt32 = 0 ↔ b = 0 := by
  constructor
  · intro zero
    rw [← UInt32.toUInt32_toInt32 b, zero]
    rfl
  · rintro rfl
    rfl

theorem divided_signed (h : b ≠ 0) :
    Divided substitute .integer a b (a.toInt32 / b.toInt32).toUInt32
      (a.toInt32 % b.toInt32).toUInt32 := by
  have nonzero : b.toInt32 ≠ 0 := fun zero => h (toInt32_eq_zero.mp zero)
  refine ⟨?_, ?_, (a.toInt32 / b.toInt32 * b.toInt32).toUInt32, ?_, ?_⟩
  · simp only [Opcode.compute_arithmetic, eval, onIntegers, if_pos nonzero, Except.map]
  · simp only [Opcode.compute_arithmetic, eval, onIntegers, if_neg nonzero, Except.map]
  · simp only [Opcode.compute_arithmetic, eval, onIntegers, Except.map, Int32.toInt32_toUInt32]
  · simp only [Opcode.compute_arithmetic, eval, onIntegers, Except.map, Int32.toInt32_toUInt32, signed_law,
      UInt32.toUInt32_toInt32]

theorem divided_unsigned (h : b ≠ 0) : Divided substitute .unsigned a b (a / b) (a % b) := by
  refine ⟨?_, ?_, a / b * b, ?_, ?_⟩
  · simp only [Opcode.compute_arithmetic, eval, onUnsigned, if_pos h]
  · simp only [Opcode.compute_arithmetic, eval, onUnsigned, if_neg h]
  · simp only [Opcode.compute_arithmetic, eval, onUnsigned]
  · simp only [Opcode.compute_arithmetic, eval, onUnsigned, unsigned_law]

/-- Only by zero is there no remainder, and no quotient where none is substituted. -/
theorem compute_fails_iff {kind : Numeric} (integral : kind ≠ .float) (op : Arithmetic) :
    (∃ e, (Opcode.arithmetic kind op).compute substitute kind a b = .error e) ↔
      b = 0 ∧ (op = .mod ∨ op = .div ∧ substitute = false) := by
  rw [Opcode.compute_arithmetic]
  cases kind with
  | float => exact absurd rfl integral
  | integer =>
    rw [← toInt32_eq_zero]
    cases op with
    | div => by_cases zero : b.toInt32 = 0 <;> cases substitute <;>
        simp [eval, onIntegers, Except.map, zero]
    | mod => by_cases zero : b.toInt32 = 0 <;> simp [eval, onIntegers, Except.map, zero]
    | _ => simp [eval, onIntegers, Except.map]
  | unsigned =>
    cases op with
    | div => by_cases zero : b = 0 <;> cases substitute <;> simp [eval, onUnsigned, zero]
    | mod => by_cases zero : b = 0 <;> simp [eval, onUnsigned, zero]
    | _ => simp [eval, onUnsigned]

theorem signed_by_zero (substitute : Bool) (a : Word) :
    (Opcode.arithmetic .integer .div).compute substitute .integer a 0 =
      if substitute then .ok (if toSigned a < 0 then 0x80000000 else 0x7fffffff)
      else .error (.divisionByZero "div.i") := by
  rw [Opcode.compute_arithmetic]
  cases substitute with
  | false => rfl
  | true =>
    have side : a.toInt32 < 0 ↔ toSigned a < 0 := Int32.lt_iff_toInt_lt
    by_cases negative : toSigned a < 0
    · simp only [eval, onIntegers, if_pos (side.mpr negative), if_pos negative]
      rfl
    · simp only [eval, onIntegers, if_neg (mt side.mp negative), if_neg negative]
      rfl

end opcodes

/-- Division of signed and of unsigned integers, by their opcodes. A divisor other than zero gives a
quotient and a remainder that make up the dividend, the remainder smaller than the divisor and, where it
has a sign, with that of the dividend. There is no remainder by zero, and a quotient only by
substitution; nothing else that is done with two integers fails. -/
theorem integer_division (substitute : Bool) (a b : Word) :
    (b ≠ 0 →
      (∃ quotient remainder, Divided substitute .integer a b quotient remainder ∧
        (toSigned remainder).natAbs < (toSigned b).natAbs ∧
        (toSigned remainder = 0 ∨ (toSigned remainder).sign = (toSigned a).sign)) ∧
      ∃ quotient remainder, Divided substitute .unsigned a b quotient remainder ∧
        remainder.toNat < b.toNat) ∧
    (Opcode.arithmetic .integer .mod).compute substitute .integer a 0 =
      .error (.divisionByZero "mod.i") ∧
    (Opcode.arithmetic .unsigned .mod).compute substitute .unsigned a 0 =
      .error (.divisionByZero "mod.u") ∧
    (Opcode.arithmetic .integer .div).compute substitute .integer a 0 =
      (if substitute then .ok (if toSigned a < 0 then 0x80000000 else 0x7fffffff)
        else .error (.divisionByZero "div.i")) ∧
    (Opcode.arithmetic .unsigned .div).compute substitute .unsigned a 0 =
      (if substitute then .ok 0xffffffff else .error (.divisionByZero "div.u")) ∧
    ∀ kind, kind ≠ .float → ∀ op,
      (∃ e, (Opcode.arithmetic kind op).compute substitute kind a b = .error e) ↔
        b = 0 ∧ (op = .mod ∨ op = .div ∧ substitute = false) := by
  refine ⟨fun h => ⟨?_, ?_⟩, rfl, rfl, signed_by_zero substitute a, ?_, ?_⟩
  · have nonzero : b.toInt32 ≠ 0 := fun zero => h (toInt32_eq_zero.mp zero)
    refine ⟨_, _, divided_signed h, ?_, ?_⟩
    · exact natAbs_remainder_lt a.toInt32 nonzero
    · exact sign_remainder a.toInt32 b.toInt32
  · exact ⟨_, _, divided_unsigned h, Nat.mod_lt _ (UInt32.pos_iff_ne_zero.mpr h)⟩
  · cases substitute <;> rfl
  · exact fun kind integral op => compute_fails_iff integral op

/-- The least integer over minus one: the quotient wraps, and nothing remains. -/
theorem least_by_minus_one :
    (∃ remainder, Divided false .integer 0x80000000 0xffffffff 0x80000000 remainder ∧
      toSigned remainder = 0) ∧
    ¬ ∃ e, (Opcode.arithmetic .integer .div).compute false .integer 0x80000000 0xffffffff = .error e := by
  obtain ⟨divided, -, -, -, -, fails⟩ := integer_division false 0x80000000 0xffffffff
  obtain ⟨quotient, remainder, both, small, -⟩ := (divided (by decide)).1
  have wraps : (Opcode.arithmetic .integer .div).compute false .integer 0x80000000 0xffffffff =
      .ok 0x80000000 := rfl
  have one : (toSigned 0xffffffff).natAbs = 1 := by decide
  cases Except.ok.inj (both.divides.symm.trans wraps)
  refine ⟨⟨remainder, both, by omega⟩, ?_⟩
  rw [fails .integer (by decide)]
  decide

end Arithmetic
end GameBytecode
