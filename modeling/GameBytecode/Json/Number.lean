import GameBytecode.Binary
import GameBytecode.Decimal
import GameBytecode.Json

/-!
Numbers of JSON text. A number that is not whole is read in two roundings: its leading digits that
fit in 64 bits become a double, which is then multiplied or divided by a power of ten.
-/
namespace GameBytecode.Json

/-- The parts of a number literal. -/
structure NumberLiteral where
  negative : Bool
  whole : List Nat
  fraction : Option (List Nat)
  /-- Sign and digits of the exponent. -/
  exponent : Option (Bool × List Nat)

namespace NumberLiteral

/-- Appends digits to a significand while it fits in 64 bits; the second part counts those taken. -/
def accumulate (significand : Nat) : List Nat → Nat × Nat
  | [] => (significand, 0)
  | d :: rest =>
    let next := significand * 10 + d
    if 0x10000000000000000 ≤ next then (significand, 0)
    else
      let (result, taken) := accumulate next rest
      (result, taken + 1)

def double : FloatFormat := .double

def powerOfTen (k : Nat) : Nat := double.nearest (Nat.pow 10 k) 1

/-- Divides a magnitude by a power of ten, 308 places at most at a time. -/
def divideByPower (magnitude places : Nat) : Nat :=
  if places ≤ 308 then double.div magnitude (powerOfTen places)
  else if magnitude = 0 then 0
  else divideByPower (double.div magnitude (powerOfTen 308)) (places - 308)
termination_by places

/-- The double for significand * 10^exponent, if it is finite. -/
def scale (significand : Nat) (exponent : Int) : Option Nat :=
  let magnitude := double.nearest significand 1
  match exponent with
  | .negSucc k => some (divideByPower magnitude (k + 1))
  | .ofNat k =>
    if 308 < k then (if magnitude = 0 then some 0 else none)
    else
      let product := double.mul magnitude (powerOfTen k)
      if product = double.infinity then none else some product

/-- The exponent that a literal gives; none when it does not fit in 31 bits. -/
def readExponent (digits : List Nat) : Option Nat :=
  let e := digits.foldl (fun e d => if 0x80000000 ≤ e then e else e * 10 + d) 0
  if 0x80000000 ≤ e then none else some e

def toFloat (negative : Bool) (magnitude : Nat) : Json :=
  .float ((if negative then (0x8000000000000000 : UInt64) else 0) ||| UInt64.ofNat magnitude)

def value (n : NumberLiteral) : Json :=
  let (whole, taken) := accumulate 0 n.whole
  let dropped := n.whole.length - taken
  if n.fraction.isNone && n.exponent.isNone && dropped = 0 then
    if !n.negative then .integer whole
    else if whole = 0 || 0x8000000000000000 < whole then toFloat true (double.nearest whole 1)
    else .integer (-whole)
  else
    let (significand, places) := accumulate whole (n.fraction.getD [])
    let start : Int := (dropped : Int) - places
    let magnitude := match n.exponent with
      | none => scale significand start
      | some (negative, digits) =>
        match readExponent digits with
        | some e => scale significand (if negative then start - e else start + e)
        | none => if significand = 0 || negative then some 0 else none
    match magnitude with
    | some magnitude => toFloat n.negative magnitude
    | none => .unreadable

end NumberLiteral

/-- Text of a double: positional from 10^-5 up to 10^16, always with a point; otherwise with an
exponent. What is no finite number is null. -/
def floatText (bits : UInt64) : String :=
  let magnitude := (bits &&& 0x7fffffffffffffff).toNat
  if FloatFormat.double.infinity ≤ magnitude then "null"
  else
    let sign := if 0x8000000000000000 ≤ bits then "-" else ""
    if magnitude = 0 then sign ++ "0.0"
    else
      let (m, q) := FloatFormat.double.decode magnitude
      let s := Decimal.shortest .double false m q
      let power := s.exponent + Decimal.digitCount s.digits - 1
      if -5 ≤ power ∧ power ≤ 15 then
        sign ++ s.positional ++ (if 0 ≤ s.exponent then ".0" else "")
      else sign ++ s.scientific

end GameBytecode.Json
