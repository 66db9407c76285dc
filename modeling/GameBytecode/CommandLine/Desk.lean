import GameBytecode.CommandLine
import GameBytecode.CommandLine.Terminal

/-!
A desk: a folder of files in memory, on which commands are performed without a system. A path is
followed from the folder down, name by name, and only folders are passed through. The desk has no
clock, so the time of an event is empty.
-/
namespace GameBytecode.CommandLine
open Text (Bytes)

/-- Files and folders, by the names that lead to them, and what was printed. -/
structure Desk where
  files : List (List String × Bytes) := []
  folders : List (List String) := []
  output : String := ""
deriving Inhabited

namespace Desk

/-- A folder by the names that lead to it; none stands for all that is not on the desk. -/
abbrev Folder := Option (List String)

def Folder.above : Folder → Folder
  | some (name :: names) => some (name :: names).dropLast
  | _ => none

def Folder.start (path : String) : Folder := if path.startsWith "/" then none else some []

/-- What a path leads to. -/
inductive Target where
  | folder
  | file (names : List String) (bytes : Bytes)
  /-- A name that is free, in a folder that is there. -/
  | free (names : List String)

/-- Follows the parts of a path. Two dots lead to the folder above, a dot or nothing leads nowhere. -/
def follow (d : Desk) (within : Folder) : List String → Except FileError Target
  | [] => .ok .folder
  | part :: rest =>
    if part = "" ∨ part = "." then d.follow within rest
    else if part = ".." then d.follow within.above rest
    else if 255 < part.utf8ByteSize then .error .nameTooLong
    else match within with
      | none => .error .notFound
      | some names =>
        let here := names ++ [part]
        if d.folders.contains here then d.follow (some here) rest
        else match d.files.lookup here, rest with
          | some bytes, [] => .ok (.file here bytes)
          | some _, _ => .error .notDirectory
          | none, [] => .ok (.free here)
          | none, _ => .error .notFound

def find (d : Desk) (path : String) : Except FileError Target :=
  if path = "" then .error .notFound
  else if 4096 ≤ path.utf8ByteSize then .error .nameTooLong
  else d.follow (.start path) (path.splitOn "/")

def read (d : Desk) (path : String) : Except FileError Bytes := do
  match ← d.find path with
  | .folder => throw .isDirectory
  | .file _ bytes => return bytes
  | .free _ => throw .notFound

/-- The file to write to at a path, with its bytes. A slash at the end asks for a folder. -/
def target (d : Desk) (path : String) : Except FileError (List String × Bytes) := do
  let plain := String.ofList (path.toList.reverse.dropWhile (· = '/')).reverse
  match ← d.find (if plain = "" then path else plain) with
  | .folder => throw .isDirectory
  | .file names bytes => if plain = path then return (names, bytes) else throw .isDirectory
  | .free names => if plain = path then return (names, []) else throw .isDirectory

def put (d : Desk) (names : List String) (bytes : Bytes) : Desk :=
  { d with files := (names, bytes) :: d.files.filter (·.1 ≠ names) }

def remove (d : Desk) (names : List String) : Desk :=
  { d with files := d.files.filter (·.1 ≠ names) }

def write (d : Desk) (path : String) (bytes : Bytes) : Except FileError Desk := do
  let (names, _) ← d.target path
  return d.put names bytes

def append (d : Desk) (path : String) (bytes : Bytes) : Except FileError Desk := do
  let (names, before) ← d.target path
  return d.put names (before ++ bytes)

/-- Makes the folders that the parts of a path name. -/
def makeFolders (d : Desk) (within : Folder) : List String → Except FileError Desk
  | [] => .ok d
  | part :: rest =>
    if part = ".." then d.makeFolders within.above rest
    else match within with
      | none => .error .notFound
      | some names =>
        let here := names ++ [part]
        if 255 < part.utf8ByteSize then .error .nameTooLong
        else if (d.files.lookup here).isSome then .error .notDirectory
        else if d.folders.contains here then d.makeFolders (some here) rest
        else { d with folders := here :: d.folders }.makeFolders (some here) rest

/-- Makes the folder for a file at a path, unless something stands in its place. -/
def makeRoom (d : Desk) (path : String) : Except FileError Desk :=
  let parts := ((path.splitOn "/").filter fun part => part ≠ "" ∧ part ≠ ".").dropLast
  match d.follow (.start path) parts with
  | .ok .folder | .ok (.file ..) => .ok d
  | _ => d.makeFolders (.start path) parts

def place (d : Desk) (path : String) (bytes : Bytes) : Except FileError Desk := do
  (← d.makeRoom path).write path bytes

private def change (f : Desk → Except FileError Desk) : StateM Desk (Except FileError Unit) :=
  modifyGet fun d =>
    match f d with
    | .ok d => (.ok (), d)
    | .error e => (.error e, d)

/-- Adds the line of an event to its file, for which a folder is made if there is none. -/
def record (options : Options) (e : Event) : StateM Desk (Except FileError Unit) := do
  let some path := options.logFile | return .ok ()
  match ← change (·.makeRoom path) with
  | .error e => return .error e
  | .ok () => change (·.append path (Text.utf8 (e.line options.json "" ++ "\n")))

def terminal (options : Options) : Terminal (StateM Desk) :=
  { read := fun path => return (← get).read path
    write := fun path bytes => change (·.write path bytes)
    print := fun text => modify fun d => { d with output := d.output ++ text }
    note := fun _ => return ()
    report := record options }

end Desk
end GameBytecode.CommandLine
