import GameBytecode.Assembly
import GameBytecode.CommandLine.Terminal
import GameBytecode.Machine

/-!
Why a command fails, in words and as an event.
-/
namespace GameBytecode.CommandLine

inductive Failure where
  | missingModule (path : String)
  | missingFunction (name : String)
  | load (e : LoadError)
  | validation (e : ValidationError)
  | machine (e : Fault)
  /-- A function that was run has failed. -/
  | fault (e : RuntimeFault)
  /-- A function that was run has ended the process. -/
  | aborted (e : Fault)
  | unreadableSettings (path : String) (e : FileError)
  | invalidSettings (path : String)
  | unreadableSource (e : FileError)
  | invalidSource
  | assembly (e : Assembly.Error)
  | file (e : FileError)
  /-- More was to be done than there is time for. -/
  | unfinished

namespace Failure

def message : Failure → String
  | missingModule path => "Module file not found: " ++ path
  | missingFunction name => "Function not found: " ++ name
  | load e => "Load error: " ++ e.message
  | validation e => "Validation error: " ++ e.message
  | machine e => "VM error: " ++ e.message
  | fault e => e.message
  | aborted e => e.message
  | unreadableSettings path e => "Config error: cannot read " ++ path ++ ": " ++ e.message
  | invalidSettings path => "Config error: invalid configuration in " ++ path
  | unreadableSource e => "Assembly error: I/O error: " ++ e.message
  | invalidSource => "Assembly error: Invalid assembly source"
  | assembly e => "Assembly error: " ++ e.message
  | file e => "IO error: " ++ e.message
  | unfinished => "Execution did not end"

def exitCode : Failure → UInt32
  | aborted _ => 101
  | _ => 1

/-- Where a fault arose. -/
def place (e : RuntimeFault) : Json :=
  .object [("backtrace", .array (e.backtrace.map .string)), ("function", .string e.function),
    ("statement", .integer e.statement)]

def event (f : Failure) : Event :=
  match f with
  | fault e => ⟨.error, "fault", f.message, some (place e)⟩
  | _ => ⟨.error, "error", f.message, none⟩

end Failure
end GameBytecode.CommandLine
