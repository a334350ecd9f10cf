import Mathlib.Data.Nat.Digits.Lemmas
import Mathlib.Tactic.IntervalCases
import WebLens.Lib.Json

/-!
# Decoding an encoded JSON value

`decode_encode` — the text of a value decodes to the value with its strings sanitized. The proof
follows the encoder: one lemma for a character, one for a string, one for an integer, and one for
each of the mutually recursive functions, all with an arbitrary continuation of the text.
-/

set_option autoImplicit false
set_option relaxedAutoImplicit false

namespace WebLens.Lib.Json

open Utf8

/-! ### Characters -/

/-- A hexadecimal digit reads back. -/
theorem hexValue_hexDigit {value : ℕ} (h : value < 16) : hexValue (hexDigit value) = some value := by
  interval_cases value <;> decide

/-- Four hexadecimal digits read back. -/
theorem readHex4_unicodeEscape {code : ℕ} (h : code < 65536) (rest : ByteString) :
    readHex4 (hexDigit (code / 4096 % 16) :: hexDigit (code / 256 % 16) ::
      hexDigit (code / 16 % 16) :: hexDigit (code % 16) :: rest) = some (code, rest) := by
  have hcode : code / 4096 % 16 * 4096 + code / 256 % 16 * 256 + code / 16 % 16 * 16 + code % 16
      = code := by
    omega
  simp [readHex4, hexValue_hexDigit, Nat.mod_lt, hcode]

/-- A `\u` escape reads as the character of its code. -/
theorem readStringRune_unicodeEscape {code : ℕ} (h : code < 65536) (rest : ByteString) :
    readStringRune (unicodeEscape code ++ rest) = some (readUnicode code rest) := by
  simp only [unicodeEscape, List.cons_append, List.nil_append, readStringRune, readEscape,
    readHex4_unicodeEscape h, Option.map_some]

/-- The character of a code outside the surrogates. -/
theorem readUnicode_toNat (c : Char) (rest : ByteString) : readUnicode c.toNat rest = (c, rest) := by
  have hvalid := c.valid
  simp only [UInt32.isValidChar, Nat.isValidChar] at hvalid
  have hc : c.toNat = c.val.toNat := rfl
  unfold readUnicode
  rw [if_neg (by omega), if_neg (by omega), Char.ofNat_toNat]

/-- The first byte of a character is its code when the code is below 128, and at least 128
otherwise. -/
theorem utf8EncodeChar_head (c : Char) :
    ∃ byte tail, String.utf8EncodeChar c = byte :: tail ∧
      (c.toNat < 128 ∧ byte.toNat = c.toNat ∨ 128 ≤ c.toNat ∧ 128 ≤ byte.toNat) := by
  have hvalid := c.valid
  simp only [UInt32.isValidChar, Nat.isValidChar] at hvalid
  have hc : c.toNat = c.val.toNat := rfl
  simp only [String.utf8EncodeChar]
  split_ifs with h1 h2 h3
  · exact ⟨_, _, rfl, .inl ⟨by omega, by rw [UInt8.toNat_ofNat']; omega⟩⟩
  · refine ⟨_, _, rfl, .inr ⟨by omega, ?_⟩⟩
    rw [UInt8.toNat_ofNat']
    omega
  · refine ⟨_, _, rfl, .inr ⟨by omega, ?_⟩⟩
    rw [UInt8.toNat_ofNat']
    omega
  · refine ⟨_, _, rfl, .inr ⟨by omega, ?_⟩⟩
    rw [UInt8.toNat_ofNat']
    omega

/-- A character that needs no escape reads back from its own bytes. -/
theorem readStringRune_utf8EncodeChar {c : Char} (hspace : 32 ≤ c.toNat) (hbackslash : c ≠ '\\')
    (rest : ByteString) :
    readStringRune (String.utf8EncodeChar c ++ rest) = some (c, rest) := by
  obtain ⟨byte, tail, hbytes, hbyte⟩ := utf8EncodeChar_head c
  have hdecode := decodeRune_eq_some.2 (rfl : String.utf8EncodeChar c ++ rest = _)
  have hslash : byte ≠ 0x5C := by
    rintro rfl
    refine hbackslash (Char.toNat_inj.1 ?_)
    change _ = 92
    have : (0x5C : UInt8).toNat = 92 := rfl
    omega
  have hcontrol : ¬ byte < 0x20 := by
    rw [UInt8.lt_iff_toNat_lt]
    change ¬ byte.toNat < 32
    omega
  rw [hbytes, List.cons_append] at hdecode ⊢
  rw [readStringRune, if_neg hcontrol, hdecode, Option.getD_some]
  exact fun h ↦ hslash h

/-- A character reads back from its bytes in a string literal. -/
theorem readStringRune_encodeChar (c : Char) (rest : ByteString) :
    readStringRune (encodeChar c ++ rest) = some (c, rest) := by
  have hescape : ∀ code : ℕ, c.toNat = code → c = Char.ofNat code := by
    rintro _ rfl
    exact c.ofNat_toNat.symm
  unfold encodeChar
  split_ifs with h1 h2 h3 h4 h5 h6 h7 h8
  · rw [h1]; rfl
  · rw [h2]; rfl
  · rw [hescape _ h3]; rfl
  · rw [hescape _ h4]; rfl
  · rw [hescape _ h5]; rfl
  · rw [hescape _ h6]; rfl
  · rw [hescape _ h7]; rfl
  · have hcode : c.toNat < 65536 := by
      rcases h8 with h | rfl | rfl | rfl | h | h
      · omega
      · decide
      · decide
      · decide
      · omega
      · omega
    rw [readStringRune_unicodeEscape hcode, readUnicode_toNat]
  · refine readStringRune_utf8EncodeChar ?_ h2 rest
    omega

/-- A rune reads back as its character, a missing one as the replacement character. -/
theorem readStringRune_encodeStringRune (rune : Option Char) (rest : ByteString) :
    readStringRune (encodeStringRune rune ++ rest) =
      some (rune.getD replacementCharacter, rest) := by
  cases rune with
  | some c => exact readStringRune_encodeChar c rest
  | none =>
    rw [encodeStringRune, readStringRune_unicodeEscape (by decide)]
    rfl

/-! ### Strings -/

/-- The bytes of a rune do not start with a quote. -/
theorem encodeStringRune_head (rune : Option Char) :
    ∃ byte tail, encodeStringRune rune = byte :: tail ∧ byte ≠ 0x22 := by
  cases rune with
  | none => exact ⟨_, _, rfl, by decide⟩
  | some c =>
    change ∃ byte tail, encodeChar c = byte :: tail ∧ byte ≠ 0x22
    unfold encodeChar
    split_ifs with h1
    all_goals try exact ⟨_, _, rfl, by decide⟩
    obtain ⟨byte, tail, hbytes, hbyte⟩ := utf8EncodeChar_head c
    refine ⟨byte, tail, hbytes, ?_⟩
    rintro rfl
    refine h1 (Char.toNat_inj.1 ?_)
    change _ = 34
    have : (0x22 : UInt8).toNat = 34 := rfl
    omega

/-- Runes in a string literal read back as their characters. -/
theorem readString_flatMap (list : List (Option Char)) (fuel : ℕ) (rest : ByteString)
    (hfuel : list.length < fuel) :
    readString fuel (list.flatMap encodeStringRune ++ 0x22 :: rest) =
      some (list.flatMap encodeRune, rest) := by
  induction list generalizing fuel with
  | nil =>
    obtain ⟨fuel, rfl⟩ := Nat.exists_eq_succ_of_ne_zero (Nat.ne_zero_of_lt hfuel)
    rfl
  | cons rune list ih =>
    obtain ⟨fuel, rfl⟩ := Nat.exists_eq_succ_of_ne_zero (Nat.ne_zero_of_lt hfuel)
    obtain ⟨byte, tail, hbytes, hquote⟩ := encodeStringRune_head rune
    have hread := readStringRune_encodeStringRune rune
      (list.flatMap encodeStringRune ++ 0x22 :: rest)
    have hlist := ih fuel (by simpa using hfuel)
    rw [List.flatMap_cons, List.append_assoc]
    rw [hbytes, List.cons_append] at hread ⊢
    rw [readString, hread]
    · simp only [Option.bind_eq_bind, Option.bind_some, hlist]
      rfl
    · exact fun _ h ↦ hquote (List.cons.inj h).1

/-- Every rune takes at least one byte of a string literal. -/
theorem length_le_flatMap_encodeStringRune (list : List (Option Char)) :
    list.length ≤ (list.flatMap encodeStringRune).length := by
  induction list with
  | nil => exact Nat.le_refl 0
  | cons rune list ih =>
    obtain ⟨byte, tail, hbytes, -⟩ := encodeStringRune_head rune
    rw [List.flatMap_cons, hbytes]
    simp only [List.length_cons, List.length_append]
    omega

/-- A string literal reads back as the sanitized string. -/
theorem readString_encodeString (value rest : ByteString) :
    readString ((runes value).flatMap encodeStringRune ++ 0x22 :: rest).length
        ((runes value).flatMap encodeStringRune ++ 0x22 :: rest) =
      some (Utf8.sanitize value, rest) := by
  refine readString_flatMap _ _ _ ?_
  have := length_le_flatMap_encodeStringRune (runes value)
  simp only [List.length_append, List.length_cons]
  omega

/-! ### Integers -/

/-- A text that does not go on with a digit. -/
def NoDigit (rest : ByteString) : Prop :=
  ∀ byte ∈ rest.head?, isDigit byte = false

/-- The byte of a decimal digit is a digit byte and gives the digit back. -/
theorem digitByte_spec {digit : ℕ} (h : digit < 10) :
    isDigit (digitByte digit) = true ∧ (digitByte digit).toNat - 0x30 = digit := by
  interval_cases digit <;> decide

/-- A digit other than zero is not written as the zero byte. -/
theorem digitByte_ne_zero {digit : ℕ} (h : digit < 10) (hne : digit ≠ 0) :
    digitByte digit ≠ 0x30 := by
  interval_cases digit
  · exact absurd rfl hne
  all_goals decide

/-- A literal of digits without a leading zero reads as the number of its digits. -/
theorem readNat_digits {digit : ℕ} {digits : List ℕ} (hne : digit ≠ 0)
    (hlt : ∀ d ∈ digit :: digits, d < 10) {rest : ByteString} (hrest : NoDigit rest) :
    readNat ((digit :: digits).map digitByte ++ rest) =
      some (Nat.ofDigits 10 (digit :: digits).reverse, rest) := by
  have hfirst : digit < 10 := hlt digit List.mem_cons_self
  have hall : ∀ byte ∈ (digit :: digits).map digitByte, isDigit byte = true := by
    intro byte hmem
    obtain ⟨d, hd, rfl⟩ := List.mem_map.1 hmem
    exact (digitByte_spec (hlt d hd)).1
  have hstop : rest.takeWhile isDigit = [] ∧ rest.dropWhile isDigit = rest := by
    cases rest with
    | nil => exact ⟨rfl, rfl⟩
    | cons byte rest => simp [hrest byte rfl]
  have hback : ((digit :: digits).map digitByte).reverse.map (fun byte ↦ byte.toNat - 0x30) =
      (digit :: digits).reverse := by
    rw [← List.map_reverse, List.map_map]
    conv_rhs => rw [← List.map_id (digit :: digits).reverse]
    refine List.map_congr_left fun d hd ↦ ?_
    exact (digitByte_spec (hlt d (List.mem_reverse.1 hd))).2
  have htake := @List.takeWhile_append_of_pos _ _ _ rest hall
  have hdrop := @List.dropWhile_append_of_pos _ _ _ rest hall
  rw [hstop.1, List.append_nil] at htake
  rw [hstop.2] at hdrop
  rw [List.map_cons, List.cons_append] at htake hdrop ⊢
  rw [readNat, if_pos (digitByte_spec hfirst).1]
  · simp only [htake, hdrop, ← List.map_cons, hback]
  · exact fun h ↦ digitByte_ne_zero hfirst hne h

/-- The decimal digits of a number read back. -/
theorem readNat_encodeNat (value : ℕ) {rest : ByteString} (hrest : NoDigit rest) :
    readNat (encodeNat value ++ rest) = some (value, rest) := by
  by_cases hzero : value = 0
  · rw [hzero]
    rfl
  obtain ⟨digit, digits, hcons⟩ : ∃ digit digits, (Nat.digits 10 value).reverse = digit :: digits :=
    List.exists_cons_of_ne_nil (by simpa [Nat.digits_ne_nil_iff_ne_zero] using hzero)
  have hne : digit ≠ 0 := by
    have hlast := Nat.getLast_digit_ne_zero 10 hzero
    rw [List.getLast_eq_head_reverse] at hlast
    simpa [hcons] using hlast
  have hlt : ∀ d ∈ digit :: digits, d < 10 := by
    intro d hd
    rw [← hcons, List.mem_reverse] at hd
    exact Nat.digits_lt_base (by decide) hd
  rw [encodeNat, if_neg hzero, hcons, readNat_digits hne hlt hrest, ← hcons, List.reverse_reverse,
    Nat.ofDigits_digits]

/-- The first byte of a number is a digit. -/
theorem encodeNat_head (value : ℕ) :
    ∃ byte tail, encodeNat value = byte :: tail ∧ isDigit byte = true := by
  have hread : readNat (encodeNat value ++ []) = some (value, []) :=
    readNat_encodeNat value (by simp [NoDigit])
  rw [List.append_nil] at hread
  cases hvalue : encodeNat value with
  | nil => simp [hvalue, readNat] at hread
  | cons byte tail =>
    refine ⟨byte, tail, rfl, ?_⟩
    rw [hvalue] at hread
    by_contra hdigit
    unfold readNat at hread
    split at hread
    · simp_all
    · simp_all [isDigit]
    · simp_all

/-- An integer literal reads back. -/
theorem readInt_encodeInt (value : ℤ) {rest : ByteString} (hrest : NoDigit rest) :
    readInt (encodeInt value ++ rest) = some (value, rest) := by
  have hread := readNat_encodeNat value.natAbs hrest
  unfold encodeInt
  split_ifs with hneg
  · rw [List.cons_append, readInt, hread, Option.map_some]
    simp only [Option.some.injEq, Prod.mk.injEq, and_true]
    omega
  · obtain ⟨byte, tail, hbytes, hdigit⟩ := encodeNat_head value.natAbs
    have habs : ((value.natAbs : ℕ) : ℤ) = value := by omega
    rw [hbytes, List.cons_append] at hread ⊢
    rw [readInt, hread, Option.map_some, habs]
    intro _ h
    rw [(List.cons.inj h).1] at hdigit
    exact absurd hdigit (by decide)

/-- The first byte of an integer is a digit or the minus sign. -/
theorem encodeInt_head (value : ℤ) :
    ∃ byte tail, encodeInt value = byte :: tail ∧ (byte = 0x2D ∨ isDigit byte = true) := by
  unfold encodeInt
  split_ifs
  · exact ⟨_, _, rfl, .inl rfl⟩
  · obtain ⟨byte, tail, hbytes, hdigit⟩ := encodeNat_head value.natAbs
    exact ⟨byte, tail, hbytes, .inr hdigit⟩

/-! ### Tokens -/

/-- Nothing is skipped before a byte that is no space. -/
theorem skipSpace_cons {byte : UInt8} (h : isSpace byte = false) (rest : ByteString) :
    skipSpace (byte :: rest) = byte :: rest := by
  simp [skipSpace, h]

/-- An expected token is read. -/
theorem expect_self {token : UInt8} (h : isSpace token = false) (rest : ByteString) :
    expect token (token :: rest) = some rest := by
  simp [expect, skipSpace_cons h]

/-- Another token is not the expected one. -/
theorem expect_of_ne {token byte : UInt8} (hspace : isSpace byte = false) (hne : byte ≠ token)
    (rest : ByteString) : expect token (byte :: rest) = none := by
  simp [expect, skipSpace_cons hspace, hne]

/-- The first byte of a value is no space and no closing bracket. -/
theorem encode_head (value : Json) :
    ∃ byte tail, encode value = byte :: tail ∧ isSpace byte = false ∧ byte ≠ 0x5D := by
  cases value with
  | null => exact ⟨_, _, rfl, by decide, by decide⟩
  | bool value => cases value <;> exact ⟨_, _, rfl, by decide, by decide⟩
  | number value =>
    obtain ⟨byte, tail, hbytes, hbyte⟩ := encodeInt_head value
    refine ⟨byte, tail, by rw [encode, hbytes], ?_, ?_⟩
    · rcases hbyte with rfl | hdigit
      · decide
      · simp only [isDigit, Bool.and_eq_true, decide_eq_true_eq, UInt8.le_iff_toNat_le] at hdigit
        simp only [isSpace, Bool.or_eq_false_iff, beq_eq_false_iff_ne, ne_eq]
        refine ⟨⟨⟨?_, ?_⟩, ?_⟩, ?_⟩ <;> rintro rfl <;> revert hdigit <;> decide
    · rintro rfl
      rcases hbyte with h | h <;> revert h <;> decide
  | string value => exact ⟨_, _, rfl, by decide, by decide⟩
  | array elements => exact ⟨_, _, by rw [encode], by decide, by decide⟩
  | object members => exact ⟨_, _, by rw [encode], by decide, by decide⟩

/-- Every value has a byte. -/
theorem length_encode_pos (value : Json) : 0 < (encode value).length := by
  obtain ⟨byte, tail, hbytes, -⟩ := encode_head value
  rw [hbytes]
  exact Nat.succ_pos _

/-- The text after an element does not go on with a digit. -/
theorem noDigit_encodeMoreElements (elements : List Json) (rest : ByteString) :
    NoDigit (encodeMoreElements elements ++ rest) := by
  cases elements with
  | nil => rintro _ ⟨⟩; decide
  | cons value elements => rw [encodeMoreElements]; rintro _ ⟨⟩; decide

/-- The text after a member does not go on with a digit. -/
theorem noDigit_encodeMoreMembers (members : List (ByteString × Json)) (rest : ByteString) :
    NoDigit (encodeMoreMembers members ++ rest) := by
  cases members with
  | nil => rintro _ ⟨⟩; decide
  | cons member members => rw [encodeMoreMembers]; rintro _ ⟨⟩; decide

/-- The closing bracket is there. -/
theorem length_encodeMoreElements_pos (elements : List Json) :
    0 < (encodeMoreElements elements).length := by
  cases elements <;> simp [encodeMoreElements]

/-- The closing brace is there. -/
theorem length_encodeMoreMembers_pos (members : List (ByteString × Json)) :
    0 < (encodeMoreMembers members).length := by
  cases members <;> simp [encodeMoreMembers]

/-- The name of a member reads back together with its colon. -/
theorem expect_encodeString (name rest : ByteString) :
    expect 0x22 (encodeString name ++ rest) =
      some ((runes name).flatMap encodeStringRune ++ 0x22 :: rest) := by
  rw [encodeString, List.append_assoc, List.cons_append, expect_self (by decide)]
  rfl

/-- At a digit or a minus sign an integer is read. -/
theorem readValue_of_int {byte : UInt8} (h : byte = 0x2D ∨ isDigit byte = true)
    (hspace : isSpace byte = false) (fuel : ℕ) (tail : ByteString) :
    readValue (fuel + 1) (byte :: tail) =
      (readInt (byte :: tail)).map fun read ↦ (.number read.1, read.2) := by
  have hne : ∀ other : UInt8, other ≠ 0x2D → isDigit other = false → byte ≠ other := by
    rintro other hminus hdigit rfl
    rcases h with h | h
    · exact hminus h
    · rw [hdigit] at h
      cases h
  rw [readValue, skipSpace_cons hspace]
  split
  · next heq => exact absurd (List.cons.inj heq).1 (hne _ (by decide) (by decide))
  · next heq => exact absurd (List.cons.inj heq).1 (hne _ (by decide) (by decide))
  · next heq => exact absurd (List.cons.inj heq).1 (hne _ (by decide) (by decide))
  · next heq => exact absurd (List.cons.inj heq).1 (hne _ (by decide) (by decide))
  · next heq => exact absurd (List.cons.inj heq).1 (hne _ (by decide) (by decide))
  · next heq => exact absurd (List.cons.inj heq).1 (hne _ (by decide) (by decide))
  · rfl

/-! ### Values -/

mutual

/-- The text of a value reads back as the sanitized value, whatever follows it. -/
theorem readValue_encode : ∀ (value : Json) (fuel : ℕ) (rest : ByteString),
    (encode value).length ≤ fuel → NoDigit rest →
      readValue fuel (encode value ++ rest) = some (value.sanitize, rest)
  | value, 0, _, hfuel, _ => absurd hfuel (Nat.not_le.2 (length_encode_pos value))
  | .null, _ + 1, _, _, _ => by
    rw [readValue, encode, List.cons_append, skipSpace_cons (by decide)]
    rfl
  | .bool true, _ + 1, _, _, _ => by
    rw [readValue, encode, List.cons_append, skipSpace_cons (by decide)]
    rfl
  | .bool false, _ + 1, _, _, _ => by
    rw [readValue, encode, List.cons_append, skipSpace_cons (by decide)]
    rfl
  | .number value, fuel + 1, rest, _, hrest => by
    obtain ⟨byte, tail, hbytes, hbyte⟩ := encodeInt_head value
    obtain ⟨_, _, hbytes', hspace, -⟩ := encode_head (.number value)
    have hread := readInt_encodeInt value hrest
    rw [encode, hbytes] at hbytes'
    rw [← (List.cons.inj hbytes').1] at hspace
    rw [encode]
    rw [hbytes, List.cons_append] at hread ⊢
    rw [readValue_of_int hbyte hspace, hread, Option.map_some, sanitize]
  | .string value, fuel + 1, rest, _, _ => by
    rw [readValue, encode, encodeString, List.append_assoc, List.cons_append,
      skipSpace_cons (by decide)]
    change (readString _ _).map _ = _
    rw [List.singleton_append, readString_encodeString, Option.map_some, sanitize]
  | .array elements, fuel + 1, rest, hfuel, _ => by
    rw [encode] at hfuel
    have hread := readElements_encode elements fuel rest (by simpa using hfuel)
    rw [readValue, encode, List.cons_append, skipSpace_cons (by decide)]
    simp only [hread, Option.map_some, sanitize]
  | .object members, fuel + 1, rest, hfuel, _ => by
    rw [encode] at hfuel
    have hread := readMembers_encode members fuel rest (by simpa using hfuel)
    rw [readValue, encode, List.cons_append, skipSpace_cons (by decide)]
    simp only [hread, Option.map_some, sanitize]

/-- The text of an array's elements reads back. -/
theorem readElements_encode : ∀ (elements : List Json) (fuel : ℕ) (rest : ByteString),
    (encodeElements elements).length ≤ fuel →
      readElements fuel (encodeElements elements ++ rest) = some (sanitizeElements elements, rest)
  | [], 0, _, hfuel => absurd hfuel (by simp [encodeElements])
  | [], _ + 1, rest, _ => by
    rw [readElements, encodeElements, List.cons_append, expect_self (by decide)]
    rfl
  | value :: elements, 0, _, hfuel => by
    have := length_encode_pos value
    simp only [encodeElements, List.length_append] at hfuel
    omega
  | value :: elements, fuel + 1, rest, hfuel => by
    have hvalue := length_encode_pos value
    have hmore := length_encodeMoreElements_pos elements
    simp only [encodeElements, List.length_append] at hfuel
    obtain ⟨byte, tail, hbytes, hspace, hbracket⟩ := encode_head value
    have hread := readValue_encode value fuel (encodeMoreElements elements ++ rest) (by omega)
      (noDigit_encodeMoreElements elements rest)
    have hreadMore := readMoreElements_encode elements fuel rest (by omega)
    rw [readElements, encodeElements, List.append_assoc]
    rw [hbytes, List.cons_append] at hread ⊢
    rw [expect_of_ne hspace hbracket]
    simp only [hread, hreadMore, Option.bind_eq_bind, Option.bind_some, sanitizeElements]
    rfl

/-- The text of an array's further elements reads back. -/
theorem readMoreElements_encode : ∀ (elements : List Json) (fuel : ℕ) (rest : ByteString),
    (encodeMoreElements elements).length ≤ fuel →
      readMoreElements fuel (encodeMoreElements elements ++ rest) =
        some (sanitizeElements elements, rest)
  | elements, 0, _, hfuel => absurd hfuel (Nat.not_le.2 (length_encodeMoreElements_pos elements))
  | [], _ + 1, rest, _ => by
    rw [readMoreElements, encodeMoreElements, List.cons_append, expect_self (by decide)]
    rfl
  | value :: elements, fuel + 1, rest, hfuel => by
    simp only [encodeMoreElements, List.length_append, List.length_cons] at hfuel
    have hread := readValue_encode value fuel (encodeMoreElements elements ++ rest) (by omega)
      (noDigit_encodeMoreElements elements rest)
    have hreadMore := readMoreElements_encode elements fuel rest (by omega)
    rw [readMoreElements, encodeMoreElements, List.append_assoc, List.cons_append,
      expect_of_ne (by decide) (by decide), expect_self (by decide)]
    simp only [hread, hreadMore, Option.bind_eq_bind, Option.bind_some, sanitizeElements]
    rfl

/-- The text of an object's members reads back. -/
theorem readMembers_encode : ∀ (members : List (ByteString × Json)) (fuel : ℕ) (rest : ByteString),
    (encodeMembers members).length ≤ fuel →
      readMembers fuel (encodeMembers members ++ rest) = some (sanitizeMembers members, rest)
  | [], 0, _, hfuel => absurd hfuel (by simp [encodeMembers])
  | [], _ + 1, rest, _ => by
    rw [readMembers, encodeMembers, List.cons_append, expect_self (by decide)]
    rfl
  | (name, value) :: members, 0, _, hfuel => by
    simp only [encodeMembers, List.length_append, List.length_cons] at hfuel
    omega
  | (name, value) :: members, fuel + 1, rest, hfuel => by
    have hmore := length_encodeMoreMembers_pos members
    simp only [encodeMembers, encodeString, List.length_append, List.length_cons] at hfuel
    have hread := readValue_encode value fuel (encodeMoreMembers members ++ rest) (by omega)
      (noDigit_encodeMoreMembers members rest)
    have hreadMore := readMoreMembers_encode members fuel rest (by omega)
    rw [readMembers, encodeMembers, List.append_assoc, List.append_assoc, expect_encodeString]
    rw [encodeString, List.append_assoc, List.cons_append, expect_of_ne (by decide) (by decide)]
    simp only [Option.bind_eq_bind, Option.bind_some, readString_encodeString, List.cons_append,
      expect_self (show isSpace 0x3A = false by decide), hread, hreadMore, sanitizeMembers]
    rfl

/-- The text of an object's further members reads back. -/
theorem readMoreMembers_encode :
    ∀ (members : List (ByteString × Json)) (fuel : ℕ) (rest : ByteString),
    (encodeMoreMembers members).length ≤ fuel →
      readMoreMembers fuel (encodeMoreMembers members ++ rest) =
        some (sanitizeMembers members, rest)
  | members, 0, _, hfuel => absurd hfuel (Nat.not_le.2 (length_encodeMoreMembers_pos members))
  | [], _ + 1, rest, _ => by
    rw [readMoreMembers, encodeMoreMembers, List.cons_append, expect_self (by decide)]
    rfl
  | (name, value) :: members, fuel + 1, rest, hfuel => by
    simp only [encodeMoreMembers, encodeString, List.length_append, List.length_cons] at hfuel
    have hread := readValue_encode value fuel (encodeMoreMembers members ++ rest) (by omega)
      (noDigit_encodeMoreMembers members rest)
    have hreadMore := readMoreMembers_encode members fuel rest (by omega)
    rw [readMoreMembers, encodeMoreMembers, List.append_assoc, List.append_assoc,
      List.cons_append, expect_of_ne (by decide) (by decide), expect_self (by decide)]
    simp only [Option.bind_eq_bind, Option.bind_some, expect_encodeString,
      readString_encodeString, List.cons_append, expect_self (show isSpace 0x3A = false by decide),
      hread, hreadMore, sanitizeMembers]
    rfl

end

/-- The text of a value decodes to the value with its strings sanitized. -/
theorem decode_encode (value : Json) : decode (encode value) = some value.sanitize := by
  have hread := readValue_encode value (encode value).length [] (Nat.le_refl _) (by simp [NoDigit])
  rw [List.append_nil] at hread
  rw [decode, hread]
  rfl

/-! ### Encoding a sanitized value -/

/-- The escape of a stray byte is three bytes longer than the replacement character. -/
theorem length_flatMap_encodeStringRune (list : List (Option Char)) :
    (list.flatMap encodeStringRune).length =
      ((list.map fun rune ↦ some (rune.getD replacementCharacter)).flatMap
        encodeStringRune).length + 3 * list.countP Option.isNone := by
  induction list with
  | nil => rfl
  | cons rune list ih =>
    have hescape : (encodeStringRune none).length =
        (encodeStringRune (some replacementCharacter)).length + 3 := by decide
    simp only [List.flatMap_cons, List.map_cons, List.length_append, List.countP_cons, ih]
    cases rune with
    | none => simp only [Option.getD_none, hescape, Option.isNone_none, if_true]; omega
    | some c =>
      simp only [Option.getD_some, Option.isNone_some, Bool.false_eq_true, if_false]
      omega

/-- Sanitizing shortens a string literal by three bytes for each stray byte. -/
theorem length_encodeString (value : ByteString) :
    (encodeString value).length =
      (encodeString (Utf8.sanitize value)).length + 3 * (runes value).countP Option.isNone := by
  have h := length_flatMap_encodeStringRune (runes value)
  simp only [encodeString, runes_sanitize, List.length_append, List.length_cons, List.length_nil]
  omega

mutual

/-- Sanitizing shortens the text of a value by three bytes for each stray byte. -/
theorem length_encode : ∀ value : Json,
    (encode value).length = (encode value.sanitize).length + 3 * value.strays
  | .null => rfl
  | .bool true => rfl
  | .bool false => rfl
  | .number _ => rfl
  | .string value => by simp only [encode, sanitize, strays, length_encodeString value]
  | .array [] => rfl
  | .array (value :: elements) => by
    have hvalue := length_encode value
    have hmore := length_encodeMoreElements elements
    simp only [encode, encodeElements, sanitize, sanitizeElements, strays, straysElements,
      List.length_cons, List.length_append]
    omega
  | .object [] => rfl
  | .object ((name, value) :: members) => by
    have hname := length_encodeString name
    have hvalue := length_encode value
    have hmore := length_encodeMoreMembers members
    simp only [encode, encodeMembers, sanitize, sanitizeMembers, strays, straysMembers,
      List.length_cons, List.length_append]
    omega

/-- Sanitizing shortens the text of elements by three bytes for each stray byte. -/
theorem length_encodeMoreElements : ∀ elements : List Json,
    (encodeMoreElements elements).length =
      (encodeMoreElements (sanitizeElements elements)).length + 3 * straysElements elements
  | [] => rfl
  | value :: elements => by
    have hvalue := length_encode value
    have hmore := length_encodeMoreElements elements
    simp only [encodeMoreElements, sanitizeElements, straysElements, List.length_cons,
      List.length_append]
    omega

/-- Sanitizing shortens the text of members by three bytes for each stray byte. -/
theorem length_encodeMoreMembers : ∀ members : List (ByteString × Json),
    (encodeMoreMembers members).length =
      (encodeMoreMembers (sanitizeMembers members)).length + 3 * straysMembers members
  | [] => rfl
  | (name, value) :: members => by
    have hname := length_encodeString name
    have hvalue := length_encode value
    have hmore := length_encodeMoreMembers members
    simp only [encodeMoreMembers, sanitizeMembers, straysMembers, List.length_cons,
      List.length_append]
    omega

end

/-- A string without stray bytes is valid UTF-8. -/
theorem countP_isNone_eq_zero {value : ByteString} :
    (runes value).countP Option.isNone = 0 ↔ valid value = true := by
  simp [valid, List.countP_eq_zero, Option.isSome_iff_ne_none]

mutual

/-- A value without stray bytes is left alone by sanitizing. -/
theorem sanitize_of_strays : ∀ value : Json, value.strays = 0 → value.sanitize = value
  | .null, _ => rfl
  | .bool _, _ => rfl
  | .number _, _ => rfl
  | .string value, h => by
    rw [sanitize, Utf8.sanitize_of_valid value (countP_isNone_eq_zero.1 h)]
  | .array elements, h => by rw [sanitize, sanitizeElements_of_strays elements h]
  | .object members, h => by rw [sanitize, sanitizeMembers_of_strays members h]

/-- Elements without stray bytes are left alone by sanitizing. -/
theorem sanitizeElements_of_strays : ∀ elements : List Json,
    straysElements elements = 0 → sanitizeElements elements = elements
  | [], _ => rfl
  | value :: elements, h => by
    simp only [straysElements, Nat.add_eq_zero_iff] at h
    rw [sanitizeElements, sanitize_of_strays value h.1, sanitizeElements_of_strays elements h.2]

/-- Members without stray bytes are left alone by sanitizing. -/
theorem sanitizeMembers_of_strays : ∀ members : List (ByteString × Json),
    straysMembers members = 0 → sanitizeMembers members = members
  | [], _ => rfl
  | (name, value) :: members, h => by
    simp only [straysMembers, Nat.add_eq_zero_iff] at h
    rw [sanitizeMembers, Utf8.sanitize_of_valid name (countP_isNone_eq_zero.1 h.1.1),
      sanitize_of_strays value h.1.2, sanitizeMembers_of_strays members h.2]

end

end WebLens.Lib.Json
