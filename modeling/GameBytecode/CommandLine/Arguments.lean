import GameBytecode.CommandLine
import GameBytecode.Text.Count

/-!
Reading an argument list. Arguments are taken one after another: the word of a command, switches
before or behind it, and its one operand. The first argument that is out of place, or that asks for
help, decides.
-/
namespace GameBytecode.CommandLine

/-- Why an argument list leads to no command. -/
inductive Stop where
  | help
  | version
  | usage
deriving DecidableEq, Repr

/-- What a switch is for. -/
inductive Meaning where
  /-- Something is so when the switch is there. -/
  | flag
  | text
  /-- A number of 64 bits. -/
  | count
  | stop (s : Stop)
deriving DecidableEq, Repr

structure Switch where
  name : String
  short : Option Char
  meaning : Meaning
deriving DecidableEq, Repr

inductive Verb where
  | info | check | disassemble | run | assemble
deriving DecidableEq, Repr

namespace Verb

def all : List Verb := [info, check, disassemble, run, assemble]

def name : Verb → String
  | info => "info" | check => "check" | disassemble => "disasm" | run => "run"
  | assemble => "assemble"

def ofName? (name : String) : Option Verb := all.find? (·.name = name)

private def sizes : List Switch := [⟨"entities", none, .count⟩, ⟨"heap", none, .count⟩]

private def function : Switch := ⟨"function", some 'f', .text⟩

/-- The switches of one command. -/
def switches : Verb → List Switch
  | info => sizes
  | check => []
  | disassemble => [function]
  | run => function :: sizes ++ [⟨"boundscheck", none, .flag⟩, ⟨"faultchecks", none, .flag⟩,
      ⟨"no-exec-limit", none, .flag⟩, ⟨"trace", none, .flag⟩, ⟨"profile", none, .flag⟩,
      ⟨"config", none, .text⟩]
  | assemble => [⟨"output", some 'o', .text⟩]

end Verb

/-- Where the next argument stands. -/
inductive Place where
  | front
  | behind (verb : Verb)
  /-- Behind the word help, with or without the name of a command after it. -/
  | help (named : Bool)
deriving DecidableEq, Repr

def Place.isHelp : Place → Bool
  | help _ => true
  | _ => false

/-- The switches that can stand anywhere. -/
def common : List Switch :=
  [⟨"verbose", some 'v', .flag⟩, ⟨"json", none, .flag⟩, ⟨"log-file", none, .text⟩,
    ⟨"help", some 'h', .stop .help⟩]

def Place.switches : Place → List Switch
  | front => ⟨"version", some 'V', .stop .version⟩ :: common
  | behind verb => common ++ verb.switches
  | help _ => []

/-- Values by the names of their switches; a flag has the empty value. -/
abbrev Given := List (String × String)

/-- An argument list read in part. -/
structure Reading where
  place : Place := .front
  /-- What was given in front of the command, and what behind it. -/
  front : Given := []
  behind : Given := []
  operand : Option String := none
  /-- A switch whose value comes next. -/
  awaiting : Option Switch := none
  /-- All that follows is operands. -/
  literal : Bool := false

namespace Reading

/-- A switch is given once at most in a place, and a count has to be one. -/
def give (r : Reading) (switch : Switch) (value : String) : Except Stop Reading :=
  let here := if r.place = .front then r.front else r.behind
  if (here.lookup switch.name).isSome then .error .usage
  else if switch.meaning = .count ∧ Text.count? value = none then .error .usage
  else
    let here := (switch.name, value) :: here
    let r := { r with awaiting := none }
    .ok (if r.place = .front then { r with front := here } else { r with behind := here })

/-- A switch with the value that is attached to it, if any. -/
def meet (r : Reading) (switch : Switch) (attached : Option String) : Except Stop Reading :=
  match switch.meaning, attached with
  | .stop s, none => .error s
  | .flag, none => r.give switch ""
  | .stop _, some _ | .flag, some _ => .error .usage
  | _, some value => r.give switch value
  | _, none => .ok { r with awaiting := some switch }

/-- A switch by its name, with a value after an equals sign. -/
def takeLong (r : Reading) (text : List Char) : Except Stop Reading :=
  let name := String.ofList (text.takeWhile (· ≠ '='))
  let attached := match text.dropWhile (· ≠ '=') with
    | [] => none
    | _ :: value => some (String.ofList value)
  match r.place.switches.find? (·.name = name) with
  | some switch => r.meet switch attached
  | none => .error .usage

/-- Switches by their letters. The rest behind the letter of one with a value is its value. -/
def takeShort (r : Reading) : List Char → Except Stop Reading
  | [] => .ok r
  | letter :: rest =>
    match r.place.switches.find? (·.short = some letter) with
    | none => .error .usage
    | some switch =>
      match switch.meaning, rest with
      | .stop s, _ => .error s
      | .flag, rest => do takeShort (← r.give switch "") rest
      | _, [] => r.meet switch none
      | _, '=' :: value | _, value => r.give switch (String.ofList value)

def takeOperand (r : Reading) (word : String) : Except Stop Reading :=
  match r.place with
  | .front =>
    if r.literal then .error .usage
    else if word = "help" then .ok { r with place := .help false }
    else match Verb.ofName? word with
      | some verb => .ok { r with place := .behind verb }
      | none => .error .usage
  | .behind _ => if r.operand.isSome then .error .usage else .ok { r with operand := some word }
  | .help true => .error .usage
  | .help false =>
    if word = "help" ∨ (Verb.ofName? word).isSome then .ok { r with place := .help true }
    else .error .usage

/-- Whether an argument has the form of a switch. -/
def isSwitch : List Char → Bool
  | '-' :: _ :: _ => true
  | _ => false

def take (r : Reading) (argument : String) : Except Stop Reading :=
  let text := argument.toList
  match r.awaiting with
  | some switch => if isSwitch text then .error .usage else r.give switch argument
  | none =>
    if r.literal || r.place.isHelp || !isSwitch text then r.takeOperand argument
    else match text with
      | ['-', '-'] => .ok { r with literal := true }
      | '-' :: '-' :: rest => r.takeLong rest
      | rest => r.takeShort rest.tail

/-- The value of a switch; behind the command it counts more than in front of it. -/
def value? (r : Reading) (name : String) : Option String :=
  (r.behind.lookup name).or (r.front.lookup name)

def flag (r : Reading) (name : String) : Bool := (r.value? name).isSome

def count (r : Reading) (name : String) (default : Nat) : Nat :=
  ((r.value? name).bind Text.count?).getD default

def options (r : Reading) : Options :=
  { verbose := r.flag "verbose", json := r.flag "json", logFile := r.value? "log-file" }

def sizes (r : Reading) : Sizes :=
  let default : Sizes := {}
  ⟨r.count "entities" default.entities, r.count "heap" default.heapBytes⟩

def plan (r : Reading) : RunPlan :=
  let default : RunPlan := {}
  { function := (r.value? "function").getD default.function
    sizes := r.sizes
    boundsCheck := r.flag "boundscheck"
    faultChecks := r.flag "faultchecks"
    noExecLimit := r.flag "no-exec-limit"
    trace := r.flag "trace"
    profile := r.flag "profile"
    config := r.value? "config" }

def command (r : Reading) (operand : String) : Verb → Command
  | .info => .info operand r.sizes
  | .check => .check operand
  | .disassemble => .disassemble operand (r.value? "function")
  | .run => .run operand r.plan
  | .assemble => .assemble operand ((r.value? "output").getD "progs.dat")

/-- The command when the arguments end here. -/
def finish (r : Reading) : Except Stop (Options × Command) :=
  match r.awaiting, r.place, r.operand with
  | none, .help _, _ => .error .help
  | none, .behind verb, some operand => .ok (r.options, r.command operand verb)
  | _, _, _ => .error .usage

end Reading

def read (arguments : List String) : Except Stop (Options × Command) := do
  (← arguments.foldlM Reading.take {}).finish

end GameBytecode.CommandLine
