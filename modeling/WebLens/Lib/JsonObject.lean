import WebLens.Lib.Base64
import WebLens.Lib.JsonRoundTrip

/-!
# Reading JSON objects

The members of JSON objects, and codecs: a way to write values as bytes and to read them back. A
codec is lawful when it reads back what it wrote, for values whose strings are texts and whose
objects have no name twice. The encoder and the decoder of JSON texts are a lawful codec.
-/

set_option autoImplicit false
set_option relaxedAutoImplicit false

namespace WebLens.Lib

open Utf8

namespace Json

/-! ### Members -/

/-- A string value for a text. -/
def ofString (text : String) : Json :=
  .string (ofText text)

/-- The text of the bytes of a string. -/
def readText (bytes : ByteString) : String :=
  String.ofList ((runes bytes).map fun rune ↦ rune.getD replacementCharacter)

/-- The member of an object with a name: the last one, if there are several. -/
def get (value : Json) (name : String) : Option Json :=
  match value with
  | .object members => members.reverse.lookup (ofText name)
  | _ => none

/-- A text. -/
def text : Json → Option String
  | .string bytes => some (readText bytes)
  | _ => none

/-- The text of a member. -/
def getText (value : Json) (name : String) : Option String :=
  (value.get name).bind text

theorem readText_ofText (text : String) : readText (ofText text) = text := by
  unfold readText ofText
  rw [runes_flatMap_encode, List.map_map]
  have hid : ((fun rune : Option Char ↦ rune.getD replacementCharacter) ∘ some) = id := rfl
  rw [hid, List.map_id, String.ofList_toList]

theorem text_ofString (value : String) : (ofString value).text = some value := by
  show some (readText (ofText value)) = _
  rw [readText_ofText]

/-! ### Names -/

mutual

/-- Whether no object of the value has a name twice. -/
def distinct : Json → Bool
  | .array elements => distinctElements elements
  | .object members => decide (members.map Prod.fst).Nodup && distinctMembers members
  | _ => true

def distinctElements : List Json → Bool
  | [] => true
  | value :: elements => value.distinct && distinctElements elements

def distinctMembers : List (ByteString × Json) → Bool
  | [] => true
  | (_, value) :: members => value.distinct && distinctMembers members

end

theorem distinctElements_iff {elements : List Json} :
    distinctElements elements = true ↔ ∀ value ∈ elements, value.distinct = true := by
  induction elements with
  | nil => exact iff_of_true rfl fun _ h ↦ absurd h List.not_mem_nil
  | cons value elements ih =>
    rw [distinctElements, Bool.and_eq_true, ih, List.forall_mem_cons]

theorem straysElements_eq_zero_iff {elements : List Json} :
    straysElements elements = 0 ↔ ∀ value ∈ elements, value.strays = 0 := by
  induction elements with
  | nil => exact iff_of_true rfl fun _ h ↦ absurd h List.not_mem_nil
  | cons value elements ih =>
    rw [straysElements, Nat.add_eq_zero_iff, ih, List.forall_mem_cons]

theorem strays_ofString (value : String) : (ofString value).strays = 0 := by
  unfold ofString strays
  exact countP_isNone_eq_zero.2 (valid_ofText value)

theorem straysMembers_cons_ofText (name : String) (value : Json)
    (members : List (ByteString × Json)) :
    straysMembers ((ofText name, value) :: members) = value.strays + straysMembers members := by
  rw [straysMembers, countP_isNone_eq_zero.2 (valid_ofText name), Nat.zero_add]

end Json

/-! ### Codecs -/

/-- A way to write values as bytes, and bytes as texts. -/
structure JsonCodec where
  stringify : Json → ByteString
  parse : ByteString → Option Json
  toBase64 : ByteString → String
  ofBase64 : String → ByteString

/-- What is written is read back. -/
structure JsonCodec.Lawful (codec : JsonCodec) : Prop where
  parse_stringify {value : Json} : value.strays = 0 → value.distinct = true →
    codec.parse (codec.stringify value) = some value
  ofBase64_toBase64 (bytes : ByteString) : codec.ofBase64 (codec.toBase64 bytes) = bytes

/-- JSON texts and Base64. -/
def JsonCodec.standard : JsonCodec where
  stringify := Json.encode
  parse := Json.decode
  toBase64 bytes := String.ofList (Base64.encode bytes)
  ofBase64 text := Base64.decode text.toList

theorem JsonCodec.lawful_standard : JsonCodec.standard.Lawful where
  parse_stringify {value} hstrays _ := by
    show Json.decode (Json.encode value) = _
    rw [Json.decode_encode, Json.sanitize_of_strays value hstrays]
  ofBase64_toBase64 bytes := by
    show Base64.decode (String.ofList (Base64.encode bytes)).toList = bytes
    rw [String.toList_ofList, Base64.decode_encode]

end WebLens.Lib
