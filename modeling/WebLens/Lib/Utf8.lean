import Mathlib.Data.List.Basic
import Mathlib.Data.String.Basic

/-!
# Byte strings and UTF-8

A string of a systems language is a list of bytes that need not be UTF-8. Reading it as text
yields its runes: each well-formed sequence as its character, and each byte that starts no
well-formed sequence by itself, as the missing character `none`. `sanitize` writes the runes back
with U+FFFD in place of the missing ones.

* `decodeRune_eq_some` — a decoded character is exactly the prefix that encodes it.
* `runes_flatMap_encode` — the runes of an encoded text are its characters.
* `sanitize_eq_self_iff` — sanitizing leaves a byte string alone exactly when it is valid UTF-8.
* `sanitize_sanitize`, `valid_sanitize` — a sanitized string is valid.
-/

set_option autoImplicit false
set_option relaxedAutoImplicit false

namespace WebLens.Lib.Utf8

/-- The bytes of a string that may or may not be UTF-8. -/
abbrev ByteString := List UInt8

/-- Comparing byte strings decides their equality. -/
instance instLawfulBEqByteString : LawfulBEq ByteString :=
  inferInstance

/-- The bytes of a text constant. -/
def ofText (text : String) : ByteString :=
  text.toList.flatMap String.utf8EncodeChar

/-- The first character of the bytes and what follows it, when the bytes start with a well-formed
sequence. -/
def decodeRune (bytes : ByteString) : Option (Char × ByteString) :=
  (bytes.toByteArray.utf8DecodeChar? 0).map fun c ↦ (c, bytes.drop c.utf8Size)

/-- The runes of the bytes after `skip` continuation bytes of the character before them. -/
def runesFrom : ℕ → ByteString → List (Option Char)
  | _, [] => []
  | skip + 1, _ :: bytes => runesFrom skip bytes
  | 0, byte :: bytes =>
    match decodeRune (byte :: bytes) with
    | some (c, _) => some c :: runesFrom (c.utf8Size - 1) bytes
    | none => none :: runesFrom 0 bytes

/-- The runes of a byte string; a byte that starts no well-formed sequence is `none`. -/
def runes (bytes : ByteString) : List (Option Char) :=
  runesFrom 0 bytes

/-- U+FFFD, which stands for a byte that is not UTF-8. -/
def replacementCharacter : Char := '\uFFFD'

/-- The bytes of a rune, with the replacement character for a missing one. -/
def encodeRune (rune : Option Char) : ByteString :=
  String.utf8EncodeChar (rune.getD replacementCharacter)

/-- The byte string with each byte that is not UTF-8 replaced by the replacement character. -/
def sanitize (bytes : ByteString) : ByteString :=
  (runes bytes).flatMap encodeRune

/-- Whether every byte of the string belongs to a well-formed sequence. -/
def valid (bytes : ByteString) : Bool :=
  (runes bytes).all Option.isSome

/-! ### Decoding one character -/

/-- A decoded character is the prefix that encodes it, and conversely. -/
theorem decodeRune_eq_some {bytes rest : ByteString} {c : Char} :
    decodeRune bytes = some (c, rest) ↔ bytes = String.utf8EncodeChar c ++ rest := by
  constructor
  · intro h
    simp only [decodeRune, Option.map_eq_some_iff, Prod.mk.injEq] at h
    obtain ⟨d, hd, rfl, hrest⟩ := h
    obtain ⟨tail, htail⟩ := ByteArray.exists_of_utf8DecodeChar?_eq_some hd
    have hbytes : bytes = String.utf8EncodeChar d ++ tail.data.toList := by
      have := congrArg (fun b ↦ b.data.toList) htail
      simpa using this
    have htail' : rest = tail.data.toList := by
      rw [← hrest, hbytes, ← String.length_utf8EncodeChar, List.drop_left]
    rw [htail']
    exact hbytes
  · rintro rfl
    have h : ((String.utf8EncodeChar c ++ rest).toByteArray.utf8DecodeChar? 0) = some c := by
      rw [List.toByteArray_append]
      exact ByteArray.utf8DecodeChar?_utf8EncodeChar_append
    simp only [decodeRune, h, Option.map_some, ← String.length_utf8EncodeChar, List.drop_left]

/-- Decoding fails exactly on the bytes that start with no encoded character. -/
theorem decodeRune_eq_none {bytes : ByteString} :
    decodeRune bytes = none ↔ ∀ c rest, bytes ≠ String.utf8EncodeChar c ++ rest := by
  constructor
  · intro h c rest hbytes
    rw [decodeRune_eq_some.2 hbytes] at h
    cases h
  · intro h
    cases hd : decodeRune bytes with
    | none => rfl
    | some decoded => exact absurd (decodeRune_eq_some.1 hd) (h decoded.1 decoded.2)

/-- An encoded character is never empty. -/
theorem encodeChar_ne_nil (c : Char) : String.utf8EncodeChar c ≠ [] := by
  intro h
  have := congrArg List.length h
  have := c.utf8Size_pos
  simp_all

/-! ### Runes of a byte string -/

/-- The skipped bytes contribute no rune. -/
theorem runesFrom_append (skipped bytes : ByteString) :
    runesFrom skipped.length (skipped ++ bytes) = runes bytes := by
  induction skipped with
  | nil => rfl
  | cons byte skipped ih => exact ih

/-- A byte string that starts with an encoded character has that character as its first rune. -/
theorem runes_encode_append (c : Char) (bytes : ByteString) :
    runes (String.utf8EncodeChar c ++ bytes) = some c :: runes bytes := by
  have hdecode := decodeRune_eq_some.2 (rfl : String.utf8EncodeChar c ++ bytes = _)
  obtain ⟨byte, tail, hc⟩ := List.exists_cons_of_ne_nil (encodeChar_ne_nil c)
  have hlength : c.utf8Size - 1 = tail.length := by
    rw [← String.length_utf8EncodeChar, hc]
    rfl
  rw [hc, List.cons_append] at hdecode ⊢
  simp only [runes, runesFrom, hdecode, hlength]
  rw [runesFrom_append]
  rfl

/-- A byte that starts no well-formed sequence is a rune by itself. -/
theorem runes_cons_of_decodeRune_eq_none {byte : UInt8} {bytes : ByteString}
    (h : decodeRune (byte :: bytes) = none) : runes (byte :: bytes) = none :: runes bytes := by
  simp only [runes, runesFrom, h]

/-- The shape of a byte string, rune by rune. -/
theorem cases_runes (bytes : ByteString) :
    bytes = [] ∨ (∃ c rest, bytes = String.utf8EncodeChar c ++ rest) ∨
      ∃ byte rest, bytes = byte :: rest ∧ decodeRune bytes = none := by
  cases bytes with
  | nil => exact .inl rfl
  | cons byte rest =>
    cases h : decodeRune (byte :: rest) with
    | none => exact .inr (.inr ⟨byte, rest, rfl, rfl⟩)
    | some decoded => exact .inr (.inl ⟨decoded.1, decoded.2, decodeRune_eq_some.1 h⟩)

/-- Induction over a byte string, rune by rune. -/
theorem induction_runes {motive : ByteString → Prop} (nil : motive [])
    (char : ∀ c rest, motive rest → motive (String.utf8EncodeChar c ++ rest))
    (stray : ∀ byte rest, decodeRune (byte :: rest) = none → motive rest →
      motive (byte :: rest))
    (bytes : ByteString) : motive bytes := by
  induction hn : bytes.length using Nat.strong_induction_on generalizing bytes with
  | _ n ih =>
    rcases cases_runes bytes with rfl | ⟨c, rest, rfl⟩ | ⟨byte, rest, rfl, hnone⟩
    · exact nil
    · refine char c rest (ih rest.length ?_ rest rfl)
      have := c.utf8Size_pos
      simp only [List.length_append, String.length_utf8EncodeChar] at hn
      omega
    · refine stray byte rest hnone (ih rest.length ?_ rest rfl)
      simp only [List.length_cons] at hn
      omega

/-- The runes of an encoded text are its characters. -/
theorem runes_flatMap_encode (text : List Char) :
    runes (text.flatMap String.utf8EncodeChar) = text.map some := by
  induction text with
  | nil => rfl
  | cons c text ih =>
    rw [List.flatMap_cons, runes_encode_append, ih, List.map_cons]

/-- Text constants are different when their texts are. -/
theorem ofText_injective : Function.Injective ofText := by
  intro first second h
  have hrunes := congrArg runes h
  rw [ofText, ofText, runes_flatMap_encode, runes_flatMap_encode] at hrunes
  exact String.toList_injective (List.map_injective_iff.2 (fun _ _ h ↦ Option.some.inj h) hrunes)

/-- A text constant is valid UTF-8. -/
@[simp]
theorem valid_ofText (text : String) : valid (ofText text) = true := by
  simp [valid, ofText, runes_flatMap_encode]

/-! ### Sanitizing -/

/-- A sanitized string is the encoding of a text. -/
theorem sanitize_eq_flatMap (bytes : ByteString) :
    sanitize bytes =
      ((runes bytes).map fun rune ↦ rune.getD replacementCharacter).flatMap
        String.utf8EncodeChar := by
  simp only [sanitize, List.flatMap_map]
  rfl

/-- Sanitizing removes every stray byte. -/
theorem runes_sanitize (bytes : ByteString) :
    runes (sanitize bytes) = (runes bytes).map fun rune ↦ some (rune.getD replacementCharacter) := by
  rw [sanitize_eq_flatMap, runes_flatMap_encode, List.map_map]
  rfl

/-- A sanitized string is valid UTF-8. -/
@[simp]
theorem valid_sanitize (bytes : ByteString) : valid (sanitize bytes) = true := by
  simp [valid, runes_sanitize]

/-- Sanitizing leaves a valid string alone. -/
theorem sanitize_of_valid (bytes : ByteString) (h : valid bytes = true) :
    sanitize bytes = bytes := by
  induction bytes using induction_runes with
  | nil => rfl
  | char c rest ih =>
    have hvalid : valid rest = true := by
      simpa [valid, runes_encode_append] using h
    simp only [sanitize, runes_encode_append, List.flatMap_cons]
    rw [show (runes rest).flatMap encodeRune = rest from ih hvalid]
    rfl
  | stray byte rest hnone ih =>
    simp [valid, runes_cons_of_decodeRune_eq_none hnone] at h

/-- Sanitizing leaves a byte string alone exactly when it is valid UTF-8. -/
theorem sanitize_eq_self_iff {bytes : ByteString} :
    sanitize bytes = bytes ↔ valid bytes = true := by
  constructor
  · intro h
    rw [← h]
    exact valid_sanitize bytes
  · exact sanitize_of_valid bytes

/-- Sanitizing twice is sanitizing once. -/
@[simp]
theorem sanitize_sanitize (bytes : ByteString) : sanitize (sanitize bytes) = sanitize bytes :=
  sanitize_of_valid _ (valid_sanitize bytes)

/-! ### ASCII -/

/-- ASCII bytes are valid UTF-8. -/
theorem valid_of_ascii {bytes : ByteString} (h : ∀ byte ∈ bytes, byte < 0x80) :
    valid bytes = true := by
  have htext : bytes = (bytes.map fun byte ↦ Char.ofNat byte.toNat).flatMap
      String.utf8EncodeChar := by
    induction bytes with
    | nil => rfl
    | cons byte bytes ih =>
      have hall : ∀ code < 128, String.utf8EncodeChar (Char.ofNat code) = [UInt8.ofNat code] := by
        decide +kernel
      have hbyte := hall byte.toNat (UInt8.lt_iff_toNat_lt.1 (h byte List.mem_cons_self))
      rw [UInt8.ofNat_toNat] at hbyte
      rw [List.map_cons, List.flatMap_cons, hbyte,
        List.singleton_append, ← ih fun other hmem ↦ h other (List.mem_cons_of_mem _ hmem)]
  rw [htext, valid, runes_flatMap_encode]
  simp

end WebLens.Lib.Utf8
