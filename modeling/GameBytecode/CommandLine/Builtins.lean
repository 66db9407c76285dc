import GameBytecode.Host.Request
import GameBytecode.Value

/-!
The builtins of the run command: printing a string, and the texts of a float and of a vector.
-/
namespace GameBytecode.CommandLine
open HostM Request

namespace Builtins

def print : Request Unit := do
  emit (← paramString 0)

def floatToString : Request Unit := do
  let _ ← returnString (Text.utf8 (Word.briefText (← paramFloat 0)))

/-- A vector in quotes, its parts with one decimal place and at least five characters wide. -/
def vectorText (v : Vector3) : String :=
  "'" ++ " ".intercalate (v.toList.map fun w => Text.padLeft 5 ' ' (Word.tenthsText w)) ++ "'"

def vectorToString : Request Unit := do
  let _ ← returnString (Text.utf8 (vectorText (← paramVector 0)))

/-- The builtins in the order of their numbers. -/
def all : List Builtin :=
  [⟨1, "print", toProgram print⟩, ⟨2, "ftos", toProgram floatToString⟩,
    ⟨3, "vtos", toProgram vectorToString⟩]

end Builtins
end GameBytecode.CommandLine
