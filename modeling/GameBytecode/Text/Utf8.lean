/-!
Text from bytes. Decoding never fails: each maximal invalid part of the input becomes one
replacement character.
-/
namespace GameBytecode.Text

abbrev Bytes := List UInt8

def utf8 (s : String) : Bytes := s.toUTF8.data.toList

def replacement : Char := '\ufffd'

def isContinuation (b : UInt8) : Bool := 0x80 ≤ b && b < 0xc0

/-- Whether b can follow the lead byte a of a sequence of three or four bytes; this excludes
overlong forms, surrogates and code points past the last. -/
def mayFollow (a b : UInt8) : Bool :=
  if a == 0xe0 then 0xa0 ≤ b && b < 0xc0
  else if a == 0xed then 0x80 ≤ b && b < 0xa0
  else if a == 0xf0 then 0x90 ≤ b && b < 0xc0
  else if a == 0xf4 then 0x80 ≤ b && b < 0x90
  else isContinuation b

private def payload (b : UInt8) : Nat := b.toNat % 64

/-- The characters of a byte string. -/
def decodeUtf8 : Bytes → List Char
  | [] => []
  | a :: s =>
    if a < 0x80 then Char.ofNat a.toNat :: decodeUtf8 s
    else if 0xc2 ≤ a && a < 0xe0 then
      match s with
      | [] => [replacement]
      | b :: t =>
        if isContinuation b then
          Char.ofNat (a.toNat % 32 * 64 + payload b) :: decodeUtf8 t
        else replacement :: decodeUtf8 (b :: t)
    else if 0xe0 ≤ a && a < 0xf0 then
      match s with
      | [] => [replacement]
      | b :: t =>
        if mayFollow a b then
          match t with
          | [] => [replacement]
          | c :: u =>
            if isContinuation c then
              Char.ofNat (a.toNat % 16 * 4096 + payload b * 64 + payload c) :: decodeUtf8 u
            else replacement :: decodeUtf8 (c :: u)
        else replacement :: decodeUtf8 (b :: t)
    else if 0xf0 ≤ a && a < 0xf5 then
      match s with
      | [] => [replacement]
      | b :: t =>
        if mayFollow a b then
          match t with
          | [] => [replacement]
          | c :: u =>
            if isContinuation c then
              match u with
              | [] => [replacement]
              | d :: v =>
                if isContinuation d then
                  Char.ofNat (a.toNat % 8 * 262144 + payload b * 4096 + payload c * 64 + payload d)
                    :: decodeUtf8 v
                else replacement :: decodeUtf8 (d :: v)
            else replacement :: decodeUtf8 (c :: u)
        else replacement :: decodeUtf8 (b :: t)
    else replacement :: decodeUtf8 s
termination_by s => s.length

def ofUtf8 (b : Bytes) : String := String.ofList (decodeUtf8 b)

/-- The text of bytes without an invalid part. -/
def ofUtf8? (b : Bytes) : Option String :=
  let s := ofUtf8 b
  if utf8 s = b then some s else none

end GameBytecode.Text
