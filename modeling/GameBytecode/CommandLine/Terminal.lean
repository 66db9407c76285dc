import GameBytecode.Event
import GameBytecode.Text.Utf8

/-!
What a command needs from its surroundings: files, output and a place for events.
-/
namespace GameBytecode.CommandLine
open Text (Bytes)

/-- Why a file cannot be read or written. -/
inductive FileError where
  | notFound
  | notDirectory
  | isDirectory
  | nameTooLong
  /-- The bytes are no text. -/
  | invalidText
  | other (message : String)
deriving DecidableEq, Repr

namespace FileError

def message : FileError → String
  | notFound => "No such file or directory (os error 2)"
  | notDirectory => "Not a directory (os error 20)"
  | isDirectory => "Is a directory (os error 21)"
  | nameTooLong => "File name too long (os error 36)"
  | invalidText => "stream did not contain valid UTF-8"
  | other message => message

/-- Whether there is nothing at the path. -/
def isAbsence : FileError → Bool
  | notFound | notDirectory | nameTooLong => true
  | _ => false

end FileError

structure Terminal (m : Type → Type) where
  read : String → m (Except FileError Bytes)
  write : String → Bytes → m (Except FileError Unit)
  /-- Writes to the output. -/
  print : String → m Unit
  /-- Writes beside the output. -/
  note : String → m Unit
  /-- Reports an event; this fails when it cannot be added to its file. -/
  report : Event → m (Except FileError Unit)

/-- Reads a file as text. -/
def Terminal.readText {m : Type → Type} [Monad m] (t : Terminal m) (path : String) :
    m (Except FileError String) := do
  match ← t.read path with
  | .error e => return .error e
  | .ok bytes =>
    match Text.ofUtf8? bytes with
    | some text => return .ok text
    | none => return .error .invalidText

end GameBytecode.CommandLine
