import GameBytecode.Text.Quoted

/-!
Text of version numbers.
-/
namespace GameBytecode.Version

/-- Extended versions are three groups of hexadecimal digits, earlier ones a plain number. -/
def text (version : UInt32) : String :=
  let v := version.toNat
  if v < 0x00fff000 then Nat.repr v
  else
    let group (width n : Nat) := Text.padLeft width '0' (Text.hex n)
    group 2 (v / 0x1000000) ++ "." ++ group 3 (v / 0x1000 % 0x1000) ++ "." ++ group 3 (v % 0x1000)

end GameBytecode.Version
