import GameBytecode.Text.Quoted
import GameBytecode.Value

/-!
Text of a word whose type is not known.
-/
namespace GameBytecode.Word

/-- A word of ordinary size as a float, any other in hexadecimal. -/
def text (w : Word) : String :=
  let magnitude := w &&& 0x7fffffff
  if w == 0 then "0"
  else if 0x358637bd ≤ magnitude && magnitude < 0x4e6e6b28 then floatText w
  else "0x" ++ Text.padLeft 8 '0' (Text.hex w.toNat)

end GameBytecode.Word
