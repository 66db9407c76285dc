/-!
Binary floating point over exact arithmetic. A pattern of a format stands for a sign and a
magnitude m * 2^q; every operation is exact on m and q and rounds once, to nearest, ties to even.
-/
namespace GameBytecode

/-- The parameters of a binary interchange format, in bits. -/
structure FloatFormat where
  /-- Significand bits, the hidden one included. -/
  precision : Nat
  width : Nat
deriving Repr, DecidableEq

namespace FloatFormat

def single : FloatFormat := ⟨24, 32⟩
def double : FloatFormat := ⟨53, 64⟩

/-- The magnitude pattern of infinity; larger magnitudes are NaNs. -/
def infinity (f : FloatFormat) : Nat :=
  (Nat.pow 2 (f.width - f.precision) - 1) <<< (f.precision - 1)

/-- The exponent of the least positive magnitude. -/
def minExponent (f : FloatFormat) : Int :=
  3 - (Nat.pow 2 (f.width - f.precision - 1) : Nat) - f.precision

/-- The exact value m * 2^q of a finite magnitude pattern. -/
def decode (f : FloatFormat) (magnitude : Nat) : Nat × Int :=
  let field := magnitude >>> (f.precision - 1)
  let fraction := magnitude % Nat.pow 2 (f.precision - 1)
  if field = 0 then (fraction, f.minExponent)
  else (fraction + Nat.pow 2 (f.precision - 1), f.minExponent + (field - 1 : Nat))

end FloatFormat

/-- The quotient n / (d * 2^e) as a fraction of naturals. -/
def scaleRatio (n d : Nat) : Int → Nat × Nat
  | .ofNat e => (n, d <<< e)
  | .negSucc e => (n <<< (e + 1), d)

/-- The natural nearest to n / d, a tie going to the even neighbour. -/
def divNearestEven (n d : Nat) : Nat :=
  let q := n / d
  let twice := 2 * (n % d)
  if d < twice || (twice == d && q % 2 == 1) then q + 1 else q

/-- The largest k with 2^k ≤ n / d, for positive n and d. -/
def ratioLog2 (n d : Nat) : Int :=
  let k : Int := (n.log2 : Int) - d.log2
  let (a, b) := scaleRatio n d k
  if a < b then k - 1 else k

namespace FloatFormat

/-- The magnitude pattern nearest to n / d, infinity from half an ulp above the largest. -/
def nearest (f : FloatFormat) (n d : Nat) : Nat :=
  if n = 0 then 0 else
    let e := max (ratioLog2 n d - (f.precision - 1 : Nat)) f.minExponent
    let (a, b) := scaleRatio n d e
    min (divNearestEven a b + (e - f.minExponent).toNat <<< (f.precision - 1)) f.infinity

/-- The magnitude pattern nearest to m * 2^q. -/
def nearestScaled (f : FloatFormat) (m : Nat) (q : Int) : Nat :=
  let (n, d) := scaleRatio m 1 (-q)
  f.nearest n d

/-- The product of two finite magnitudes. -/
def mul (f : FloatFormat) (a b : Nat) : Nat :=
  let (m, q) := f.decode a
  let (n, r) := f.decode b
  f.nearestScaled (m * n) (q + r)

/-- The quotient of two finite magnitudes, the second not zero. -/
def div (f : FloatFormat) (a b : Nat) : Nat :=
  let (m, q) := f.decode a
  let (n, r) := f.decode b
  let (num, den) := scaleRatio m n (r - q)
  f.nearest num den

end FloatFormat
end GameBytecode
