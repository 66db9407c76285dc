/-!
JSON values. Members of an object keep their order and may repeat a key; whole numbers and other
numbers are told apart.
-/
namespace GameBytecode

inductive Json where
  | null
  | bool (b : Bool)
  /-- A whole number that fits in 64 bits, signed or not. -/
  | integer (i : Int)
  /-- A double, as its pattern. -/
  | float (bits : UInt64)
  | string (s : String)
  | array (items : List Json)
  | object (members : List (String × Json))
  /-- What is well formed and denotes nothing: a number too large for a double, text with half a
  surrogate pair, or an object with such a text for a key. -/
  | unreadable
deriving Inhabited, BEq

end GameBytecode
