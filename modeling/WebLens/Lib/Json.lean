import Mathlib.Data.List.Sort
import Mathlib.Data.Nat.Digits.Defs
import WebLens.Lib.Utf8

/-!
# JSON texts

JSON values whose strings are byte strings, the encoder that escapes HTML characters and writes
the replacement character for bytes that are not UTF-8, and a decoder for JSON texts. Numbers are
integers.

The encoder writes no spaces; the decoder accepts them between tokens, and every escape of the
grammar. `Json.canon` sorts the members of every object by name, which forgets their order, and
`Json.sanitize` makes every string valid UTF-8.
-/

set_option autoImplicit false
set_option relaxedAutoImplicit false

namespace WebLens.Lib

open Utf8

/-- A JSON value. A string is the bytes of the text it denotes. -/
inductive Json
  | null
  | bool (value : Bool)
  | number (value : ℤ)
  | string (value : ByteString)
  | array (elements : List Json)
  | object (members : List (ByteString × Json))

namespace Json

/-! ### Encoding -/

/-- The lower-case hexadecimal digit of a value below sixteen. -/
def hexDigit (value : ℕ) : UInt8 :=
  if value < 10 then 0x30 + value.toUInt8 else 0x57 + value.toUInt8

/-- The escape `\u` with four hexadecimal digits. -/
def unicodeEscape (code : ℕ) : ByteString :=
  [0x5C, 0x75, hexDigit (code / 4096 % 16), hexDigit (code / 256 % 16),
    hexDigit (code / 16 % 16), hexDigit (code % 16)]

/-- The bytes of a character inside a string: the short escapes, `\u` for the other control
characters, for the HTML characters `<`, `>`, `&` and for U+2028 and U+2029, and the character
itself otherwise. -/
def encodeChar (c : Char) : ByteString :=
  if c = '"' then [0x5C, 0x22]
  else if c = '\\' then [0x5C, 0x5C]
  else if c.toNat = 8 then [0x5C, 0x62]
  else if c.toNat = 12 then [0x5C, 0x66]
  else if c.toNat = 10 then [0x5C, 0x6E]
  else if c.toNat = 13 then [0x5C, 0x72]
  else if c.toNat = 9 then [0x5C, 0x74]
  else if c.toNat < 32 ∨ c = '<' ∨ c = '>' ∨ c = '&' ∨ c.toNat = 0x2028 ∨ c.toNat = 0x2029 then
    unicodeEscape c.toNat
  else String.utf8EncodeChar c

/-- The bytes of a rune inside a string. A byte that is not UTF-8 is written as the six bytes of
the escape `\ufffd`, while the replacement character itself is written as its three bytes. -/
def encodeStringRune : Option Char → ByteString
  | some c => encodeChar c
  | none => unicodeEscape 0xFFFD

/-- A string literal. -/
def encodeString (value : ByteString) : ByteString :=
  0x22 :: (runes value).flatMap encodeStringRune ++ [0x22]

/-- The byte of a decimal digit. -/
def digitByte (digit : ℕ) : UInt8 :=
  0x30 + digit.toUInt8

/-- The decimal digits of a number. -/
def encodeNat (value : ℕ) : ByteString :=
  if value = 0 then [0x30] else (Nat.digits 10 value).reverse.map digitByte

/-- An integer literal. -/
def encodeInt (value : ℤ) : ByteString :=
  if value < 0 then 0x2D :: encodeNat value.natAbs else encodeNat value.natAbs

mutual

/-- The text of a value, without spaces. -/
def encode : Json → ByteString
  | .null => [0x6E, 0x75, 0x6C, 0x6C]
  | .bool true => [0x74, 0x72, 0x75, 0x65]
  | .bool false => [0x66, 0x61, 0x6C, 0x73, 0x65]
  | .number value => encodeInt value
  | .string value => encodeString value
  | .array elements => 0x5B :: encodeElements elements
  | .object members => 0x7B :: encodeMembers members

/-- The elements of an array and its closing bracket. -/
def encodeElements : List Json → ByteString
  | [] => [0x5D]
  | value :: elements => encode value ++ encodeMoreElements elements

/-- The elements after the first. -/
def encodeMoreElements : List Json → ByteString
  | [] => [0x5D]
  | value :: elements => 0x2C :: encode value ++ encodeMoreElements elements

/-- The members of an object and its closing brace. -/
def encodeMembers : List (ByteString × Json) → ByteString
  | [] => [0x7D]
  | (name, value) :: members =>
    encodeString name ++ 0x3A :: encode value ++ encodeMoreMembers members

/-- The members after the first. -/
def encodeMoreMembers : List (ByteString × Json) → ByteString
  | [] => [0x7D]
  | (name, value) :: members =>
    0x2C :: encodeString name ++ 0x3A :: encode value ++ encodeMoreMembers members

end

/-! ### Decoding -/

/-- The bytes that may stand between tokens. -/
def isSpace (byte : UInt8) : Bool :=
  byte == 0x20 || byte == 0x09 || byte == 0x0A || byte == 0x0D

/-- The bytes after the leading spaces. -/
def skipSpace (bytes : ByteString) : ByteString :=
  bytes.dropWhile isSpace

/-- Whether the byte is a decimal digit. -/
def isDigit (byte : UInt8) : Bool :=
  decide (0x30 ≤ byte) && decide (byte ≤ 0x39)

/-- The value of a hexadecimal digit of either case. -/
def hexValue (byte : UInt8) : Option ℕ :=
  if 0x30 ≤ byte ∧ byte ≤ 0x39 then some (byte.toNat - 0x30)
  else if 0x61 ≤ byte ∧ byte ≤ 0x66 then some (byte.toNat - 0x57)
  else if 0x41 ≤ byte ∧ byte ≤ 0x46 then some (byte.toNat - 0x37)
  else none

/-- The code of four hexadecimal digits. -/
def readHex4 : ByteString → Option (ℕ × ByteString)
  | a :: b :: c :: d :: rest => do
    let a ← hexValue a
    let b ← hexValue b
    let c ← hexValue c
    let d ← hexValue d
    pure (a * 4096 + b * 256 + c * 16 + d, rest)
  | _ => none

/-- The character of a `\u` escape whose code was read: a surrogate pair is one character, a
surrogate by itself is the replacement character. -/
def readUnicode (code : ℕ) (rest : ByteString) : Char × ByteString :=
  if 0xD800 ≤ code ∧ code < 0xDC00 then
    match rest with
    | 0x5C :: 0x75 :: more =>
      match readHex4 more with
      | some (low, rest') =>
        if 0xDC00 ≤ low ∧ low < 0xE000 then
          (Char.ofNat (0x10000 + (code - 0xD800) * 1024 + (low - 0xDC00)), rest')
        else (replacementCharacter, rest)
      | none => (replacementCharacter, rest)
    | _ => (replacementCharacter, rest)
  else if 0xDC00 ≤ code ∧ code < 0xE000 then (replacementCharacter, rest)
  else (Char.ofNat code, rest)

/-- The character of an escape, after its backslash. -/
def readEscape : ByteString → Option (Char × ByteString)
  | 0x22 :: rest => some ('"', rest)
  | 0x5C :: rest => some ('\\', rest)
  | 0x2F :: rest => some ('/', rest)
  | 0x62 :: rest => some (Char.ofNat 8, rest)
  | 0x66 :: rest => some (Char.ofNat 12, rest)
  | 0x6E :: rest => some (Char.ofNat 10, rest)
  | 0x72 :: rest => some (Char.ofNat 13, rest)
  | 0x74 :: rest => some (Char.ofNat 9, rest)
  | 0x75 :: rest => (readHex4 rest).map fun read ↦ readUnicode read.1 read.2
  | _ => none

/-- The next character of a string literal: an escape, a character, or the replacement character
for a byte that is not UTF-8. `none` at a control character or a bad escape. -/
def readStringRune : ByteString → Option (Char × ByteString)
  | [] => none
  | 0x5C :: rest => readEscape rest
  | byte :: rest =>
    if byte < 0x20 then none
    else (decodeRune (byte :: rest)).getD (replacementCharacter, rest)

/-- The bytes a string literal denotes, after its opening quote. -/
def readString : ℕ → ByteString → Option (ByteString × ByteString)
  | 0, _ => none
  | _ + 1, 0x22 :: rest => some ([], rest)
  | fuel + 1, bytes => do
    let (c, rest) ← readStringRune bytes
    let (value, rest) ← readString fuel rest
    pure (String.utf8EncodeChar c ++ value, rest)

/-- A literal of digits, which starts with a zero only when it is zero. -/
def readNat : ByteString → Option (ℕ × ByteString)
  | [] => none
  | 0x30 :: rest => some (0, rest)
  | byte :: rest =>
    if isDigit byte then
      let digits := (byte :: rest).takeWhile isDigit
      some (Nat.ofDigits 10 (digits.reverse.map fun digit ↦ digit.toNat - 0x30),
        (byte :: rest).dropWhile isDigit)
    else none

/-- An integer literal. -/
def readInt : ByteString → Option (ℤ × ByteString)
  | 0x2D :: rest => (readNat rest).map fun read ↦ (-(read.1 : ℤ), read.2)
  | bytes => (readNat bytes).map fun read ↦ ((read.1 : ℤ), read.2)

/-- The bytes after the given token and the spaces before it. -/
def expect (token : UInt8) (bytes : ByteString) : Option ByteString :=
  match skipSpace bytes with
  | byte :: rest => if byte = token then some rest else none
  | [] => none

mutual

/-- The first value of the bytes and what follows it. -/
def readValue : ℕ → ByteString → Option (Json × ByteString)
  | 0, _ => none
  | fuel + 1, bytes =>
    match skipSpace bytes with
    | 0x6E :: 0x75 :: 0x6C :: 0x6C :: rest => some (.null, rest)
    | 0x74 :: 0x72 :: 0x75 :: 0x65 :: rest => some (.bool true, rest)
    | 0x66 :: 0x61 :: 0x6C :: 0x73 :: 0x65 :: rest => some (.bool false, rest)
    | 0x22 :: rest => (readString rest.length rest).map fun read ↦ (.string read.1, read.2)
    | 0x5B :: rest => (readElements fuel rest).map fun read ↦ (.array read.1, read.2)
    | 0x7B :: rest => (readMembers fuel rest).map fun read ↦ (.object read.1, read.2)
    | bytes => (readInt bytes).map fun read ↦ (.number read.1, read.2)

/-- The elements of an array, after its opening bracket. -/
def readElements : ℕ → ByteString → Option (List Json × ByteString)
  | 0, _ => none
  | fuel + 1, bytes =>
    match expect 0x5D bytes with
    | some rest => some ([], rest)
    | none => do
      let (value, rest) ← readValue fuel bytes
      let (elements, rest) ← readMoreElements fuel rest
      pure (value :: elements, rest)

/-- The elements after the first. -/
def readMoreElements : ℕ → ByteString → Option (List Json × ByteString)
  | 0, _ => none
  | fuel + 1, bytes =>
    match expect 0x5D bytes with
    | some rest => some ([], rest)
    | none => do
      let rest ← expect 0x2C bytes
      let (value, rest) ← readValue fuel rest
      let (elements, rest) ← readMoreElements fuel rest
      pure (value :: elements, rest)

/-- The members of an object, after its opening brace. -/
def readMembers : ℕ → ByteString → Option (List (ByteString × Json) × ByteString)
  | 0, _ => none
  | fuel + 1, bytes =>
    match expect 0x7D bytes with
    | some rest => some ([], rest)
    | none => do
      let rest ← expect 0x22 bytes
      let (name, rest) ← readString rest.length rest
      let rest ← expect 0x3A rest
      let (value, rest) ← readValue fuel rest
      let (members, rest) ← readMoreMembers fuel rest
      pure ((name, value) :: members, rest)

/-- The members after the first. -/
def readMoreMembers : ℕ → ByteString → Option (List (ByteString × Json) × ByteString)
  | 0, _ => none
  | fuel + 1, bytes =>
    match expect 0x7D bytes with
    | some rest => some ([], rest)
    | none => do
      let rest ← expect 0x2C bytes
      let rest ← expect 0x22 rest
      let (name, rest) ← readString rest.length rest
      let rest ← expect 0x3A rest
      let (value, rest) ← readValue fuel rest
      let (members, rest) ← readMoreMembers fuel rest
      pure ((name, value) :: members, rest)

end

/-- The value of a text that is one value and nothing else but spaces. -/
def decode (text : ByteString) : Option Json :=
  match readValue text.length text with
  | some (value, rest) => if skipSpace rest = [] then some value else none
  | none => none

/-! ### Values up to the order of members -/

mutual

/-- The value with every string valid UTF-8. -/
def sanitize : Json → Json
  | .null => .null
  | .bool value => .bool value
  | .number value => .number value
  | .string value => .string (Utf8.sanitize value)
  | .array elements => .array (sanitizeElements elements)
  | .object members => .object (sanitizeMembers members)

/-- The elements with every string valid UTF-8. -/
def sanitizeElements : List Json → List Json
  | [] => []
  | value :: elements => value.sanitize :: sanitizeElements elements

/-- The members with every string and every name valid UTF-8. -/
def sanitizeMembers : List (ByteString × Json) → List (ByteString × Json)
  | [] => []
  | (name, value) :: members => (Utf8.sanitize name, value.sanitize) :: sanitizeMembers members

end

/-- The members without those that a later member of the same name overrides. -/
def keepLast {α : Type*} : List (ByteString × α) → List (ByteString × α)
  | [] => []
  | member :: members =>
    if member.1 ∈ members.map Prod.fst then keepLast members else member :: keepLast members

/-- The members in the order of their names. -/
def sortMembers {α : Type*} (members : List (ByteString × α)) : List (ByteString × α) :=
  members.insertionSort fun first second ↦ first.1 ≤ second.1

mutual

/-- The value with the members of every object in the order of their names, the last one of each
name. Two texts denote the same value when their values have the same canonical form. -/
def canon : Json → Json
  | .null => .null
  | .bool value => .bool value
  | .number value => .number value
  | .string value => .string value
  | .array elements => .array (canonElements elements)
  | .object members => .object (sortMembers (keepLast (canonMembers members)))

/-- The canonical elements. -/
def canonElements : List Json → List Json
  | [] => []
  | value :: elements => value.canon :: canonElements elements

/-- The members with their canonical values, in the given order. -/
def canonMembers : List (ByteString × Json) → List (ByteString × Json)
  | [] => []
  | (name, value) :: members => (name, value.canon) :: canonMembers members

end

mutual

/-- The number of bytes in the strings of the value that are not UTF-8. -/
def strays : Json → ℕ
  | .null => 0
  | .bool _ => 0
  | .number _ => 0
  | .string value => (runes value).countP Option.isNone
  | .array elements => straysElements elements
  | .object members => straysMembers members

/-- The stray bytes of the elements. -/
def straysElements : List Json → ℕ
  | [] => 0
  | value :: elements => value.strays + straysElements elements

/-- The stray bytes of the members and their names. -/
def straysMembers : List (ByteString × Json) → ℕ
  | [] => 0
  | (name, value) :: members =>
    (runes name).countP Option.isNone + value.strays + straysMembers members

end

end Json

end WebLens.Lib
