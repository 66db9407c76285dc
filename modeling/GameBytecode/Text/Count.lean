/-!
Counts in text.
-/
namespace GameBytecode.Text

/-- Counts have 64 bits. -/
def countLimit : Nat := 0x10000000000000000

/-- A count in decimal digits, with or without a plus sign. -/
def count? (s : String) : Option Nat :=
  let digits := match s.toList with
    | '+' :: rest => rest
    | all => all
  if digits.isEmpty || !digits.all Char.isDigit then none
  else
    let n := digits.foldl (fun n c => n * 10 + (c.toNat - '0'.toNat)) 0
    if n < countLimit then some n else none

end GameBytecode.Text
