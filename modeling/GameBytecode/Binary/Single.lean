import GameBytecode.Binary

/-!
Single precision on 32-bit words. Words are copied and compared as they are; a word is read as
a float only by the operations here. Every result of arithmetic that is no number is quiet, and
keeps the payload of the first operand that is no number.
-/
namespace GameBytecode

/-- One cell of memory. -/
abbrev Word := UInt32

namespace Single

def magnitude (w : Word) : Nat := (w &&& 0x7fffffff).toNat
def isNegative (w : Word) : Bool := 0x80000000 ≤ w
def isNaN (w : Word) : Bool := 0x7f800000 < (w &&& 0x7fffffff)
def isInfinite (w : Word) : Bool := (w &&& 0x7fffffff) == 0x7f800000
def isFinite (w : Word) : Bool := (w &&& 0x7fffffff) < 0x7f800000

/-- Zero of either sign. -/
def isZero (w : Word) : Bool := (w &&& 0x7fffffff) == 0

def one : Word := 0x3f800000

/-- The pattern produced by an operation without a value, such as infinity less infinity. -/
def invalid : Word := 0xffc00000

def quiet (w : Word) : Word := w ||| 0x00400000

def pack (negative : Bool) (magnitude : Nat) : Word :=
  (if negative then (0x80000000 : Word) else 0) ||| UInt32.ofNat magnitude

/-- The exact value of a finite word: its sign and m * 2^q. -/
def decode (w : Word) : Bool × Nat × Int :=
  (isNegative w, FloatFormat.single.decode (magnitude w))

/-- The finite value over a common scale 2^e, for e at most its exponent. -/
private def units (w : Word) (e : Int) : Int :=
  let (negative, m, q) := decode w
  let n : Int := m <<< (q - e).toNat
  if negative then -n else n

private def propagate (f : Word → Word → Word) (a b : Word) : Word :=
  if isNaN a then quiet a else if isNaN b then quiet b else f a b

def neg (w : Word) : Word := w ^^^ 0x80000000

def add : Word → Word → Word := propagate fun a b =>
  if isInfinite a then
    if isInfinite b && isNegative a != isNegative b then invalid else a
  else if isInfinite b then b
  else
    let e := min (decode a).2.2 (decode b).2.2
    let sum := units a e + units b e
    if sum = 0 then (if isNegative a && isNegative b then 0x80000000 else 0)
    else pack (sum < 0) (FloatFormat.single.nearestScaled sum.natAbs e)

def sub (a b : Word) : Word :=
  if isNaN b then (if isNaN a then quiet a else quiet b) else add a (neg b)

def mul : Word → Word → Word := propagate fun a b =>
  let negative := isNegative a != isNegative b
  if isInfinite a || isInfinite b then
    if isZero a || isZero b then invalid else pack negative FloatFormat.single.infinity
  else pack negative (FloatFormat.single.mul (magnitude a) (magnitude b))

def div : Word → Word → Word := propagate fun a b =>
  let negative := isNegative a != isNegative b
  if isInfinite a then
    if isInfinite b then invalid else pack negative FloatFormat.single.infinity
  else if isInfinite b then pack negative 0
  else if isZero b then
    if isZero a then invalid else pack negative FloatFormat.single.infinity
  else pack negative (FloatFormat.single.div (magnitude a) (magnitude b))

/-- Place of a word that is a number on the number line; both zeros are at 0. -/
def key (w : Word) : Int :=
  if isNegative w then -(magnitude w : Int) else magnitude w

def eq (a b : Word) : Bool := !isNaN a && !isNaN b && key a == key b
def lt (a b : Word) : Bool := !isNaN a && !isNaN b && decide (key a < key b)
def le (a b : Word) : Bool := !isNaN a && !isNaN b && decide (key a ≤ key b)

/-- The float nearest to an integer. -/
def ofInt (i : Int) : Word :=
  pack (i < 0) (FloatFormat.single.nearestScaled i.natAbs 0)

/-- The integer part, clamped to 32 bits; 0 for what is no number. -/
def toInt32 (w : Word) : Int32 :=
  if isNaN w then 0
  else if 0x4f000000 ≤ magnitude w then
    if isNegative w then Int32.minValue else Int32.maxValue
  else
    let (negative, m, q) := decode w
    let n : Int := match q with
      | .ofNat k => (m <<< k : Nat)
      | .negSucc k => (m >>> (k + 1) : Nat)
    Int32.ofInt (if negative then -n else n)

/-- A finite word without a fractional part. -/
def isIntegral (w : Word) : Bool :=
  isFinite w && match (decode w).2 with
    | (_, .ofNat _) => true
    | (m, .negSucc k) => m % Nat.pow 2 (k + 1) == 0

/-- The single precision number nearest to a double. -/
def ofDouble (bits : UInt64) : Word :=
  let negative := 0x8000000000000000 ≤ bits
  let magnitude := (bits &&& 0x7fffffffffffffff).toNat
  if FloatFormat.double.infinity < magnitude then
    quiet (pack negative (FloatFormat.single.infinity + (magnitude >>> 29) % 0x400000))
  else if magnitude = FloatFormat.double.infinity then pack negative FloatFormat.single.infinity
  else
    let (m, q) := FloatFormat.double.decode magnitude
    pack negative (FloatFormat.single.nearestScaled m q)

/-- The same number in double precision. -/
def toDouble (w : Word) : UInt64 :=
  let sign : UInt64 := if isNegative w then 0x8000000000000000 else 0
  let magnitude : UInt64 :=
    if isNaN w then (0x7ff8000000000000 : UInt64) ||| (((w &&& 0x3fffff).toUInt64) <<< 29)
    else if isInfinite w then 0x7ff0000000000000
    else
      let (m, q) := FloatFormat.single.decode (magnitude w)
      UInt64.ofNat (FloatFormat.double.nearestScaled m q)
  sign ||| magnitude

end Single
end GameBytecode
