import GameBytecode.Json.Writer

/-!
Events: what a command reports beside its output, as a line of text or as JSON.
-/
namespace GameBytecode

namespace Event

inductive Level where
  | info | warn | error
deriving DecidableEq, Repr

def Level.name : Level → String
  | info => "info" | warn => "warn" | error => "error"

def Level.capitals : Level → String
  | info => "INFO" | warn => "WARN" | error => "ERROR"

end Event

structure Event where
  level : Event.Level
  /-- The activity that reports. -/
  tag : String
  message : String
  data : Option Json

namespace Event

def text (e : Event) : String :=
  "[" ++ e.level.capitals ++ "] [" ++ e.tag ++ "] " ++ e.message

/-- The members of the event, with those of a timestamp in their place. -/
def toJson (e : Event) (timestamp : List (String × Json)) : Json :=
  .object ([("level", .string e.level.name), ("tag", .string e.tag),
    ("message", .string e.message)] ++ timestamp ++
    match e.data with
    | some j => [("data", j)]
    | none => [])

/-- The line of the event at a time. -/
def line (json : Bool) (timestamp : String) (e : Event) : String :=
  if json then (e.toJson [("timestamp", .string timestamp)]).compact
  else timestamp ++ " " ++ e.text

end Event
end GameBytecode
