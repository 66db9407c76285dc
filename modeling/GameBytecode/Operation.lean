import GameBytecode.Fault
import GameBytecode.Binary.Single
import GameBytecode.Opcode.Table

/-!
Arithmetic and comparison of words. Integers wrap; shifts count modulo 32; bit operations on floats
go by way of the integer part. Division by zero is a fault unless a substitute is asked for:
infinity signed like the quotient, or the extreme integer on the side of the dividend. The
remainder by zero always is.
-/
namespace GameBytecode

/-- A word counts as true unless it is a zero of either sign. -/
def Word.isTrue (w : Word) : Bool := !Single.isZero w

namespace Arithmetic

/-- The fault of dividing by zero. -/
def byZero (kind : Numeric) (op : Arithmetic) : Fault :=
  .divisionByZero (Opcode.arithmetic kind op).mnemonic

private def shiftRightSigned (a b : Int32) : Int32 := a >>> (b &&& 31)

private def shiftLeftSigned (a b : Int32) : Int32 := a <<< (b &&& 31)

def onIntegers (substitute : Bool) (op : Arithmetic) (a b : Int32) : Except Fault Int32 :=
  match op with
  | .add => .ok (a + b)
  | .sub => .ok (a - b)
  | .mul => .ok (a * b)
  | .div =>
    if b ≠ 0 then .ok (a / b)
    else if substitute then .ok (if a < 0 then Int32.minValue else Int32.maxValue)
    else .error (byZero .integer .div)
  | .mod => if b = 0 then .error (byZero .integer .mod) else .ok (a % b)
  | .bitAnd => .ok (a &&& b)
  | .bitOr => .ok (a ||| b)
  | .bitXor => .ok (a ^^^ b)
  | .shiftLeft => .ok (shiftLeftSigned a b)
  | .shiftRight => .ok (shiftRightSigned a b)

def onUnsigned (substitute : Bool) (op : Arithmetic) (a b : Word) : Except Fault Word :=
  match op with
  | .add => .ok (a + b)
  | .sub => .ok (a - b)
  | .mul => .ok (a * b)
  | .div =>
    if b ≠ 0 then .ok (a / b)
    else if substitute then .ok 0xffffffff
    else .error (byZero .unsigned .div)
  | .mod => if b = 0 then .error (byZero .unsigned .mod) else .ok (a % b)
  | .bitAnd => .ok (a &&& b)
  | .bitOr => .ok (a ||| b)
  | .bitXor => .ok (a ^^^ b)
  | .shiftLeft => .ok (a <<< (b &&& 31))
  | .shiftRight => .ok (a >>> (b &&& 31))

/-- An operation on the integer parts of two floats. -/
private def onTruncated (f : Int32 → Int32 → Int32) (a b : Word) : Word :=
  Single.ofInt (f (Single.toInt32 a) (Single.toInt32 b)).toInt

def onFloats (substitute : Bool) (op : Arithmetic) (a b : Word) : Except Fault Word :=
  match op with
  | .add => .ok (Single.add a b)
  | .sub => .ok (Single.sub a b)
  | .mul => .ok (Single.mul a b)
  | .div =>
    if !Single.isZero b then .ok (Single.div a b)
    else if substitute then .ok (((a ^^^ b) &&& 0x80000000) ||| 0x7f800000)
    else .error (byZero .float .div)
  | .mod =>
    if Single.toInt32 b = 0 then .error (byZero .float .mod) else .ok (onTruncated (· % ·) a b)
  | .bitAnd => .ok (onTruncated (· &&& ·) a b)
  | .bitOr => .ok (onTruncated (· ||| ·) a b)
  | .bitXor => .ok (onTruncated (· ^^^ ·) a b)
  | .shiftLeft => .ok (onTruncated shiftLeftSigned a b)
  | .shiftRight => .ok (onTruncated shiftRightSigned a b)

/-- The operation on two words, both of a kind. -/
def eval (substitute : Bool) (kind : Numeric) (op : Arithmetic) (a b : Word) : Except Fault Word :=
  match kind with
  | .float => onFloats substitute op a b
  | .integer => (onIntegers substitute op a.toInt32 b.toInt32).map (·.toUInt32)
  | .unsigned => onUnsigned substitute op a b

end Arithmetic

namespace Comparison

/-- What an order between two values says. -/
def holds : Comparison → Ordering → Bool
  | eq, o => o.isEq
  | ne, o => o.isNe
  | le, o => o.isLE
  | ge, o => o.isGE
  | lt, o => o.isLT
  | gt, o => o.isGT

def onIntegers (op : Comparison) (a b : Int32) : Bool :=
  match op with
  | eq => a == b
  | ne => a != b
  | le => a ≤ b
  | ge => b ≤ a
  | lt => a < b
  | gt => b < a

def onUnsigned (op : Comparison) (a b : Word) : Bool :=
  match op with
  | eq => a == b
  | ne => a != b
  | le => a ≤ b
  | ge => b ≤ a
  | lt => a < b
  | gt => b < a

/-- Every comparison but inequality fails for what is no number. -/
def onFloats (op : Comparison) (a b : Word) : Bool :=
  match op with
  | eq => Single.eq a b
  | ne => !Single.eq a b
  | le => Single.le a b
  | ge => Single.le b a
  | lt => Single.lt a b
  | gt => Single.lt b a

end Comparison

namespace Connective

def eval : Connective → Bool → Bool → Bool
  | and, a, b => a && b
  | or, a, b => a || b

end Connective

namespace Numeric

/-- Whether a word of a kind counts as true. -/
def isTrue : Numeric → Word → Bool
  | float, w => Word.isTrue w
  | integer, w | unsigned, w => w != 0

end Numeric

namespace Opcode

/-- The result of an opcode that computes on two numbers of a kind. -/
def compute (substitute : Bool) (kind : Numeric) (op : Opcode) (a b : Word) : Except Fault Word :=
  match op with
  | arithmetic k f =>
    if k = kind then f.eval substitute kind a b else .error (.unknownOpcode op.code)
  | _ => .error (.unknownOpcode op.code)

theorem compute_arithmetic (substitute : Bool) (kind : Numeric) (f : Arithmetic) (a b : Word) :
    (arithmetic kind f).compute substitute kind a b = f.eval substitute kind a b := by
  simp only [compute, if_true]

/-- The verdict of an opcode that compares two numbers of a kind. Pointers are integers. -/
def judge (kind : Numeric) (op : Opcode) (a b : Word) : Except Fault Bool :=
  match kind, op with
  | .float, compare .float c => .ok (c.onFloats a b)
  | .integer, compare .integer c | .integer, compare .pointer c =>
    .ok (c.onIntegers a.toInt32 b.toInt32)
  | .unsigned, compare .unsigned c => .ok (c.onUnsigned a b)
  | .float, connective .float c => .ok (c.eval (Numeric.float.isTrue a) (Numeric.float.isTrue b))
  | .integer, connective .integer c => .ok (c.eval (a != 0) (b != 0))
  | .unsigned, connective .unsigned c => .ok (c.eval (a != 0) (b != 0))
  | _, _ => .error (.unknownOpcode op.code)

theorem judge_connective (kind : Numeric) (c : Connective) (a b : Word) :
    (connective kind c).judge kind a b = .ok (c.eval (kind.isTrue a) (kind.isTrue b)) := by
  cases kind <;> rfl

theorem judge_compare {kind : Ordered} {number : Numeric} (handed : (kind, number) ∈
      [(.float, .float), (.integer, .integer), (.pointer, .integer), (.unsigned, .unsigned)])
    (c : Comparison) (a b : Word) : ∃ holds, (compare kind c).judge number a b = .ok holds := by
  simp only [List.mem_cons, Prod.mk.injEq, List.not_mem_nil, or_false] at handed
  rcases handed with ⟨rfl, rfl⟩ | ⟨rfl, rfl⟩ | ⟨rfl, rfl⟩ | ⟨rfl, rfl⟩ <;> exact ⟨_, rfl⟩

end Opcode
end GameBytecode
