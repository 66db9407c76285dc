import GameBytecode.Binary.Single
import GameBytecode.Decimal
import GameBytecode.ValueType

/-!
Values: the host's view of one or more words of memory.
-/
namespace GameBytecode

/-- Three floats. -/
structure Vector3 where
  x : Word
  y : Word
  z : Word
deriving DecidableEq, Repr, Inhabited

namespace Vector3

def toList (v : Vector3) : List Word := [v.x, v.y, v.z]
def map (f : Word → Word) (v : Vector3) : Vector3 := ⟨f v.x, f v.y, f v.z⟩
def zipWith (f : Word → Word → Word) (v w : Vector3) : Vector3 :=
  ⟨f v.x w.x, f v.y w.y, f v.z w.z⟩

end Vector3

namespace Word

def toSigned (w : Word) : Int := w.toInt32.toInt

def ofSigned (i : Int) : Word := (Int32.ofInt i).toUInt32

/-- The digits of a float, without exponent. -/
def floatText (w : Word) : String :=
  if Single.isNaN w then "NaN" else
    let sign := if Single.isNegative w then "-" else ""
    if Single.isInfinite w then sign ++ "inf"
    else if Single.isZero w then sign ++ "0"
    else
      let (_, m, q) := Single.decode w
      sign ++ (Decimal.shortest .single true m q).positional

/-- The float with one decimal place. -/
def tenthsText (w : Word) : String :=
  if Single.isNaN w then "NaN" else
    let sign := if Single.isNegative w then "-" else ""
    if Single.isInfinite w then sign ++ "inf"
    else
      let (_, m, q) := Single.decode w
      sign ++ Decimal.fixed 1 m q

/-- An integer of less than 10^9 without, any other float with one decimal place. -/
def briefText (w : Word) : String :=
  let i := (Single.toInt32 w).toInt
  if Single.isIntegral w && decide (i.natAbs < 1000000000) then toString i else tenthsText w

end Word

inductive Value where
  | void
  | string (reference : Word)
  | float (bits : Word)
  | vector (v : Vector3)
  | entity (number : Word)
  | field (offset : Word)
  | function (number : Word)
  | pointer (address : Word)
  | quaternion (x y z w : Word)
  | integer (i : Word)
  | unsigned (u : Word)
deriving DecidableEq, Repr, Inhabited

namespace Value

def type : Value → ValueType
  | void => .void
  | string _ => .string
  | float _ => .float
  | vector _ => .vector
  | entity _ => .entity
  | field _ => .field
  | function _ => .function
  | pointer _ => .pointer
  | quaternion .. => .quaternion
  | integer _ => .integer
  | unsigned _ => .unsigned

/-- The words that hold the value; none for void. -/
def words : Value → List Word
  | void => []
  | vector v => v.toList
  | quaternion x y z w => [x, y, z, w]
  | string a | float a | entity a | field a | function a | pointer a | integer a | unsigned a => [a]

/-- The value of a type at the front of some words; none when there are too few of them. -/
def ofWords? : ValueType → List Word → Option Value
  | .void, _ :: _ | .immediate, _ :: _ | .struct, _ :: _ => some void
  | .string, a :: _ => some (string a)
  | .float, a :: _ => some (float a)
  | .vector, x :: y :: z :: _ => some (vector ⟨x, y, z⟩)
  | .entity, a :: _ => some (entity a)
  | .field, a :: _ => some (field a)
  | .function, a :: _ => some (function a)
  | .pointer, a :: _ => some (pointer a)
  | .quaternion, x :: y :: z :: w :: _ => some (quaternion x y z w)
  | .integer, a :: _ => some (integer a)
  | .unsigned, a :: _ => some (unsigned a)
  | _, _ => none

def text : Value → String
  | void => "void"
  | string a => "string " ++ toString (Word.toSigned a)
  | float a => Word.floatText a
  | vector v => "'" ++ " ".intercalate (v.toList.map Word.floatText) ++ "'"
  | entity a => "entity " ++ toString a.toNat
  | field a => "." ++ toString a.toNat
  | function a => "function " ++ toString a.toNat
  | pointer a => "&" ++ toString a.toNat
  | quaternion x y z w => "'" ++ " ".intercalate ([x, y, z, w].map Word.floatText) ++ "'"
  | integer a => toString (Word.toSigned a)
  | unsigned a => toString a.toNat

end Value
end GameBytecode
