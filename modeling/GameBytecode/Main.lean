import GameBytecode.CommandLine.Perform
import GameBytecode.Settings.Environment
import Std.Time.Format

/-!
The program: commands on the files of the system.
-/
namespace GameBytecode.CommandLine
open Text (Bytes)

/-- The number of a system error, some of which come negated. -/
private def errorNumber (code : UInt32) : UInt32 := if 0x80000000 ≤ code then 0 - code else code

private def numbered (code : UInt32) (details : String) : FileError :=
  .other (details ++ " (os error " ++ toString (errorNumber code).toNat ++ ")")

def fileError : IO.Error → FileError
  | .noFileOrDirectory .. => .notFound
  | .inappropriateType _ code _ => if errorNumber code = 20 then .notDirectory else .isDirectory
  | .invalidArgument _ code details =>
    if errorNumber code = 36 then .nameTooLong else numbered code details
  | .permissionDenied _ code details | .alreadyExists _ code details
  | .resourceExhausted _ code details => numbered code details
  | e => .other (toString e)

def attempt {α : Type} (action : IO α) : IO (Except FileError α) := do
  match ← action.toBaseIO with
  | .ok a => return .ok a
  | .error e => return .error (fileError e)

/-- The present moment in universal time. -/
def timestamp : IO String := do
  let now ← Std.Time.Timestamp.now
  return (Std.Time.DateTime.ofTimestamp now .UTC).format "uuuu-MM-dd'T'HH:mm:ss.SSSSSSSSSxxx"

/-- Adds a line to a file, whose folder is made if there is none. -/
def append (path line : String) : IO Unit := do
  let folder := "/".intercalate (path.splitOn "/").dropLast
  unless folder.isEmpty do IO.FS.createDirAll folder
  let file ← IO.FS.Handle.mk path .append
  file.putStr line

def report (options : Options) (e : Event) : IO (Except FileError Unit) := do
  let line := Report.line (e.line options.json (← timestamp))
  IO.eprint line
  match options.logFile with
  | some path => attempt (append path line)
  | none => return .ok ()

def terminal (options : Options) : Terminal IO :=
  { read := fun path => attempt (return (← IO.FS.readBinFile path).data.toList)
    write := fun path bytes => attempt (IO.FS.writeBinFile path ⟨bytes.toArray⟩)
    print := IO.print
    note := IO.eprint
    report := report options }

/-- The settings that the variables of the process give. -/
def environment : IO Settings := do
  let found ← Settings.variableNames.mapM fun name => return (name, ← IO.getEnv name)
  return Settings.ofEnvironment fun name => (found.lookup name).join

end GameBytecode.CommandLine

def main (arguments : List String) : IO UInt32 := do
  GameBytecode.CommandLine.respond GameBytecode.CommandLine.terminal
    (← GameBytecode.CommandLine.environment) arguments
