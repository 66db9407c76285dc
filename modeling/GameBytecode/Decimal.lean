import GameBytecode.Binary

/-!
Decimal text of binary numbers: the fewest digits that read back, and a fixed number of places.
-/
namespace GameBytecode.Decimal

/-- The decimal number digits * 10^exponent. -/
structure Shortest where
  digits : Nat
  exponent : Int
deriving Repr, DecidableEq

/-- The quotient n / (d * 10^e) as a fraction of naturals. -/
def scaleRatio10 (n d : Nat) (e : Int) : Nat × Nat :=
  match e with
  | .ofNat e => (n, d * Nat.pow 10 e)
  | .negSucc e => (n * Nat.pow 10 (e + 1), d)

/-- The least k with n / d < 10^k, for positive n and d. -/
def ratioDigits (n d : Nat) : Int :=
  let guess : Int := (ratioLog2 n d * 30103) / 100000
  let below (k : Int) : Bool := let (a, b) := scaleRatio10 n d k; a < b
  if below guess then guess else if below (guess + 1) then guess + 1 else guess + 2

/-- The positive value m * 2^q of a format and the interval of numbers that round to it, all as
numerators over one denominator. -/
structure Interval where
  low : Nat
  value : Nat
  high : Nat
  denominator : Nat
  closed : Bool

def Interval.of (f : FloatFormat) (m : Nat) (q : Int) : Interval :=
  let below := if m = Nat.pow 2 (f.precision - 1) ∧ f.minExponent < q then 1 else 2
  let (scale, denominator) := scaleRatio 1 1 (2 - q)
  ⟨(4 * m - below) * scale, 4 * m * scale, (4 * m + 2) * scale, denominator, m % 2 == 0⟩

/-- Whether candidate * 10^e lies in the interval. -/
def Interval.holds (i : Interval) (candidate : Nat) (e : Int) : Bool :=
  let (a, b) := scaleRatio10 candidate 1 (-e)
  let x := a * i.denominator
  if i.closed then i.low * b ≤ x && x ≤ i.high * b else i.low * b < x && x < i.high * b

/-- The neighbour of the value on the grid of 10^e that reads back, the nearer of two; an exact
tie goes to the larger when tieUp holds and to the even digit otherwise. -/
def Interval.pick (i : Interval) (tieUp : Bool) (e : Int) : Option Shortest :=
  let (a, b) := scaleRatio10 i.value i.denominator e
  let low := a / b
  let twice := 2 * (a % b)
  match i.holds low e, i.holds (low + 1) e with
  | false, false => none
  | true, false => some ⟨low, e⟩
  | false, true => some ⟨low + 1, e⟩
  | true, true =>
    if twice < b || (twice == b && !tieUp && low % 2 == 0) then some ⟨low, e⟩
    else some ⟨low + 1, e⟩

/-- The shortest decimal that reads back as the positive value m * 2^q. -/
def shortest (f : FloatFormat) (tieUp : Bool) (m : Nat) (q : Int) : Shortest :=
  let i := Interval.of f m q
  let k := ratioDigits i.value i.denominator
  let found := (List.range 17).findSome? fun n => i.pick tieUp (k - (n + 1 : Nat))
  match found with
  | some ⟨10, e⟩ => ⟨1, e + 1⟩
  | some s => s
  | none => ⟨0, 0⟩

def digitCount (n : Nat) : Nat := (Nat.repr n).length

/-- Digits, without exponent; a point only before a fraction. -/
def Shortest.positional (s : Shortest) : String :=
  let text := Nat.repr s.digits
  match s.exponent with
  | .ofNat k => text ++ String.ofList (List.replicate k '0')
  | .negSucc k =>
    let places := k + 1
    if places < text.length then
      String.ofList (text.toList.take (text.length - places)) ++ "." ++
        String.ofList (text.toList.drop (text.length - places))
    else "0." ++ String.ofList (List.replicate (places - text.length) '0') ++ text

/-- One digit before the point and the power of ten after it, always signed. -/
def Shortest.scientific (s : Shortest) : String :=
  let text := Nat.repr s.digits
  let power := s.exponent + (text.length - 1 : Nat)
  let fraction := if text.length = 1 then "" else "." ++ String.ofList (text.toList.drop 1)
  String.ofList (text.toList.take 1) ++ fraction ++ "e" ++
    (if power < 0 then "-" else "+") ++ Nat.repr power.natAbs

/-- The nonnegative value m * 2^q with a fixed number of places, ties to the even digit. -/
def fixed (places m : Nat) (q : Int) : String :=
  let (n, d) := scaleRatio m 1 (-q)
  let one := Nat.pow 10 places
  let units := divNearestEven (n * one) d
  let text := Nat.repr (units % one)
  let whole := Nat.repr (units / one)
  if places = 0 then whole
  else whole ++ "." ++ String.ofList (List.replicate (places - text.length) '0') ++ text

end GameBytecode.Decimal
