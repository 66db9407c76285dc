import GameBytecode.Binary.Single
import GameBytecode.Json

/-!
Typed reading of JSON values. A record is written as an object, whose unknown members are ignored
and whose known members come once at most, or as an array of its first members in order.
-/
namespace GameBytecode.Json

/-- The known members of a record with given keys. -/
def record? (keys : List String) : Json → Option (List (String × Json))
  | object members =>
    let known := members.filter fun (key, _) => keys.contains key
    if (known.map (·.1)).eraseDups.length = known.length then some known else none
  | array items => if items.length ≤ keys.length then some (keys.zip items) else none
  | _ => none

/-- A member that has to be there. -/
def member? {α : Type} (members : List (String × Json)) (key : String) (read : Json → Option α) :
    Option α :=
  (members.lookup key).bind read

/-- A member that has a default. -/
def memberD {α : Type} (members : List (String × Json)) (key : String) (read : Json → Option α)
    (default : α) : Option α :=
  match members.lookup key with
  | some j => read j
  | none => some default

def text? : Json → Option String
  | string s => some s
  | _ => none

def bool? : Json → Option Bool
  | bool b => some b
  | _ => none

def list? {α : Type} (read : Json → Option α) : Json → Option (List α)
  | array items => items.mapM read
  | _ => none

/-- Null stands for a value that is absent. -/
def optional? {α : Type} (read : Json → Option α) : Json → Option (Option α)
  | null => some none
  | j => (read j).map some

/-- A whole number at least low and below high. -/
def integer? (low high : Int) : Json → Option Int
  | integer i => if low ≤ i ∧ i < high then some i else none
  | _ => none

/-- A natural number below a limit. -/
def natural? (limit : Nat) (j : Json) : Option Nat := (j.integer? 0 limit).map Int.toNat

def uint32? (j : Json) : Option UInt32 := (j.natural? 0x100000000).map UInt32.ofNat

/-- Any number as a float. -/
def float? : Json → Option Word
  | integer i => some (Single.ofInt i)
  | float bits => some (Single.ofDouble bits)
  | _ => none

/-- One of several named alternatives: its name, or an object with the name and nothing else. -/
def choice? : Json → Option String
  | string s => some s
  | object [(s, null)] => some s
  | _ => none

end GameBytecode.Json
