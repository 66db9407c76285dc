import GameBytecode.CommandLine.Arguments
import GameBytecode.Digest
import GameBytecode.Json.Writer
import GameBytecode.Machine.Access

/-!
The output of commands, as text or as JSON with the members of an object in the order of their
names.
-/
namespace GameBytecode.CommandLine.Report
open Text (Bytes)

def line (s : String) : String := s ++ "\n"

def lines (l : List String) : String := String.join (l.map line)

def checksum (m : Module) : String := Text.padLeft 4 '0' (Text.hex m.checksum.toNat)

/-- What there is to know of a module. -/
def moduleText (m : Module) (digest : Bytes) : String :=
  lines [
    "version:     " ++ Version.text m.version,
    "crc:         " ++ checksum m,
    "sha256:      " ++ Digest.text digest,
    "size:        " ++ toString m.size ++ " bytes",
    "statements:  " ++ toString m.statements.size,
    "functions:   " ++ toString m.functions.size,
    "globals:     " ++ toString m.globals.size,
    "globaldefs:  " ++ toString m.globalDefs.size,
    "fielddefs:   " ++ toString m.fieldDefs.size,
    "entity size: " ++ toString m.header.entityFields.toNat ++ " words",
    "layout:      " ++ m.layout.text]

def headerJson (h : Header) : Json :=
  let members := Header.names.zip (h.toList.map fun n => Json.integer n.toNat)
  .object (members.mergeSort fun x y => decide (x.1 ≤ y.1))

def moduleJson (m : Module) (digest : Bytes) : Json :=
  .object [("crc", .string (checksum m)), ("header", headerJson m.header),
    ("layout", .string m.layout.text), ("sha256", .string (Digest.text digest)),
    ("size", .integer m.size), ("version", .string (Version.text m.version))]

def moduleInfo (json : Bool) (m : Module) (digest : Bytes) : String :=
  if json then line ((moduleJson m digest).indented 0) else moduleText m digest

/-- A float as a number of double precision; null for infinities and what is no number. -/
def floatJson (w : Word) : Json :=
  if Single.isFinite w then .float (Single.toDouble w) else .null

def result (json : Bool) (function : String) (w : Word) : String :=
  if json then
    line (Json.object [("function", .string function), ("return", floatJson w)]).compact
  else line ("return: " ++ Word.briefText w)

def profile (json : Bool) (entries : List Profile.Entry) : String :=
  if json then
    line (Json.array (entries.map fun e => .object [("function", .string e.function),
      ("file", .string e.file), ("statements", .integer e.statements)])).compact
  else lines (entries.map fun e =>
    Text.padLeft 8 ' ' (toString e.statements) ++ " " ++ e.function ++ " (" ++ e.file ++ ")")

def version : String := line "progs-vm 0.1.0"

def usage : String :=
  lines ["Usage: progs-vm [SWITCHES] COMMAND", "",
    "Commands:",
    "  info FILE [--entities COUNT] [--heap BYTES]",
    "  check FILE",
    "  disasm FILE [-f NAME]",
    "  run FILE [-f NAME] [--entities COUNT] [--heap BYTES] [--boundscheck] [--faultchecks]",
    "      [--no-exec-limit] [--trace] [--profile] [--config FILE]",
    "  assemble SOURCE [-o FILE]", "",
    "Switches: [-v] [--json] [--log-file FILE] [-h] [-V]"]

end GameBytecode.CommandLine.Report
