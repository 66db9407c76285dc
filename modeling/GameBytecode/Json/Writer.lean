import GameBytecode.Json.Number
import GameBytecode.Text.Quoted

/-!
Writing JSON text, in one line or indented.
-/
namespace GameBytecode.Json

def escapeChar (c : Char) : String :=
  match c with
  | '"' => "\\\""
  | '\\' => "\\\\"
  | '\x08' => "\\b"
  | '\x0c' => "\\f"
  | '\n' => "\\n"
  | '\r' => "\\r"
  | '\t' => "\\t"
  | c =>
    if c.toNat < 0x20 then "\\u" ++ Text.padLeft 4 '0' (Text.hex c.toNat) else c.toString

def quote (s : String) : String := "\"" ++ String.join (s.toList.map escapeChar) ++ "\""

def scalarText : Json → String
  | null | unreadable | array _ | object _ => "null"
  | bool b => if b then "true" else "false"
  | integer i => toString i
  | float bits => floatText bits
  | string s => quote s

mutual

/-- The text without blanks. -/
def compact : Json → String
  | array items => "[" ++ ",".intercalate (compactItems items) ++ "]"
  | object members => "\x7b" ++ ",".intercalate (compactMembers members) ++ "\x7d"
  | scalar => scalarText scalar

def compactItems : List Json → List String
  | [] => []
  | item :: rest => compact item :: compactItems rest

def compactMembers : List (String × Json) → List String
  | [] => []
  | (key, value) :: rest => (quote key ++ ":" ++ compact value) :: compactMembers rest

end

mutual

/-- The text with each item on a line of its own, at a depth. -/
def indented (depth : Nat) : Json → String
  | array [] => "[]"
  | object [] => "\x7b\x7d"
  | array items => "[" ++ ",".intercalate (indentedItems (depth + 1) items) ++ margin depth ++ "]"
  | object members =>
    "\x7b" ++ ",".intercalate (indentedMembers (depth + 1) members) ++ margin depth ++ "\x7d"
  | scalar => scalarText scalar

def indentedItems (depth : Nat) : List Json → List String
  | [] => []
  | item :: rest => (margin depth ++ indented depth item) :: indentedItems depth rest

def indentedMembers (depth : Nat) : List (String × Json) → List String
  | [] => []
  | (key, value) :: rest =>
    (margin depth ++ quote key ++ ": " ++ indented depth value) :: indentedMembers depth rest

/-- The start of a line at a depth. -/
def margin (depth : Nat) : String := "\n" ++ String.ofList (List.replicate (2 * depth) ' ')

end

end GameBytecode.Json
