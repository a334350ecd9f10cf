import WebLens.Lib.Utf8

/-!
# Base64

Bytes as characters, three bytes as four characters; a shorter rest is padded. `encodeRawUrl` is
the form without padding whose alphabet is safe in URLs.

* `decode_encode` — the encoded bytes are read back.
* `decodeRawUrl_encodeRawUrl` — so are those of the form for URLs.
* `encodeRawUrl_visible` — that form is made of visible ASCII characters.
-/

set_option autoImplicit false
set_option relaxedAutoImplicit false

namespace WebLens.Lib.Base64

open Utf8 (ByteString)

def alphabet : List Char :=
  "ABCDEFGHIJKLMNOPQRSTUVWXYZabcdefghijklmnopqrstuvwxyz0123456789+/".toList

/-- The character of six bits. -/
def digitOf (sextet : ℕ) : Char :=
  alphabet.getD sextet 'A'

/-- The six bits of a character. -/
def sextetOf (digit : Char) : ℕ :=
  alphabet.idxOf digit

/-- The characters of 24 bits. -/
def digitsOf (bits : ℕ) : List Char :=
  [digitOf (bits / 262144), digitOf (bits / 4096 % 64), digitOf (bits / 64 % 64),
    digitOf (bits % 64)]

def encode : ByteString → List Char
  | [] => []
  | [a] => (digitsOf (a.toNat * 65536)).take 2 ++ ['=', '=']
  | [a, b] => (digitsOf (a.toNat * 65536 + b.toNat * 256)).take 3 ++ ['=']
  | a :: b :: c :: rest => digitsOf (a.toNat * 65536 + b.toNat * 256 + c.toNat) ++ encode rest

/-- The bytes of 24 bits. -/
def bytesOf (bits : ℕ) : ByteString :=
  [(bits / 65536).toUInt8, (bits / 256 % 256).toUInt8, (bits % 256).toUInt8]

def decode : List Char → ByteString
  | x :: y :: z :: w :: rest =>
    let high := sextetOf x * 262144 + sextetOf y * 4096
    if z = '=' then (bytesOf high).take 1
    else if w = '=' then (bytesOf (high + sextetOf z * 64)).take 2
    else bytesOf (high + sextetOf z * 64 + sextetOf w) ++ decode rest
  | _ => []

/-- The alphabet, spelt out. -/
theorem alphabet_eq : alphabet = ['A', 'B', 'C', 'D', 'E', 'F', 'G', 'H', 'I', 'J', 'K', 'L', 'M',
    'N', 'O', 'P', 'Q', 'R', 'S', 'T', 'U', 'V', 'W', 'X', 'Y', 'Z', 'a', 'b', 'c', 'd', 'e', 'f',
    'g', 'h', 'i', 'j', 'k', 'l', 'm', 'n', 'o', 'p', 'q', 'r', 's', 't', 'u', 'v', 'w', 'x', 'y',
    'z', '0', '1', '2', '3', '4', '5', '6', '7', '8', '9', '+', '/'] :=
  String.toList_ofList

theorem nodup_alphabet : alphabet.Nodup := by
  rw [alphabet_eq]
  decide

theorem length_alphabet : alphabet.length = 64 := by
  rw [alphabet_eq]
  rfl

theorem digitOf_mem (sextet : ℕ) : digitOf sextet ∈ alphabet := by
  rw [digitOf, List.getD_eq_getElem?_getD]
  by_cases hlt : sextet < alphabet.length
  · rw [List.getElem?_eq_getElem hlt]
    exact List.getElem_mem hlt
  · rw [List.getElem?_eq_none (Nat.not_lt.1 hlt), alphabet_eq]
    exact List.mem_cons_self

theorem sextetOf_digitOf (sextet : ℕ) (h : sextet < 64) : sextetOf (digitOf sextet) = sextet := by
  have hlt : sextet < alphabet.length := length_alphabet.symm ▸ h
  rw [digitOf, List.getD_eq_getElem?_getD, List.getElem?_eq_getElem hlt]
  exact nodup_alphabet.idxOf_getElem sextet hlt

theorem padding_notMem_alphabet : '=' ∉ alphabet := by
  rw [alphabet_eq]
  decide

theorem digitOf_ne_padding (sextet : ℕ) : digitOf sextet ≠ '=' :=
  fun h ↦ padding_notMem_alphabet (h ▸ digitOf_mem sextet)

theorem toUInt8_toNat (a : UInt8) : a.toNat.toUInt8 = a :=
  UInt8.ofNat_toNat

/-- The bytes of the bits that three bytes make. -/
theorem bytesOf_bits (a b c : UInt8) :
    bytesOf (a.toNat * 65536 + b.toNat * 256 + c.toNat) = [a, b, c] := by
  have ha := a.toNat_lt
  have hb := b.toNat_lt
  have hc := c.toNat_lt
  have hhigh : (a.toNat * 65536 + b.toNat * 256 + c.toNat) / 65536 = a.toNat := by omega
  have hmiddle : (a.toNat * 65536 + b.toNat * 256 + c.toNat) / 256 % 256 = b.toNat := by omega
  have hlow : (a.toNat * 65536 + b.toNat * 256 + c.toNat) % 256 = c.toNat := by omega
  unfold bytesOf
  rw [hhigh, hmiddle, hlow, toUInt8_toNat, toUInt8_toNat, toUInt8_toNat]

/-- What the first two characters of 24 bits carry. -/
theorem sextets_high {bits : ℕ} (h : bits < 16777216) :
    sextetOf (digitOf (bits / 262144)) * 262144 + sextetOf (digitOf (bits / 4096 % 64)) * 4096 =
      bits / 4096 * 4096 := by
  rw [sextetOf_digitOf _ (by omega), sextetOf_digitOf _ (by omega)]
  omega

theorem decode_cons (x y z w : Char) (rest : List Char) :
    decode (x :: y :: z :: w :: rest) =
      if z = '=' then (bytesOf (sextetOf x * 262144 + sextetOf y * 4096)).take 1
      else if w = '=' then
        (bytesOf (sextetOf x * 262144 + sextetOf y * 4096 + sextetOf z * 64)).take 2
      else bytesOf (sextetOf x * 262144 + sextetOf y * 4096 + sextetOf z * 64 + sextetOf w) ++
        decode rest := by
  rw [decode]

theorem decode_digitsOf {bits : ℕ} (h : bits < 16777216) (rest : List Char) :
    decode (digitsOf bits ++ rest) = bytesOf bits ++ decode rest := by
  have hz := digitOf_ne_padding (bits / 64 % 64)
  have hw := digitOf_ne_padding (bits % 64)
  have hbits : bits / 4096 * 4096 + bits / 64 % 64 * 64 + bits % 64 = bits := by omega
  show decode (_ :: _ :: _ :: _ :: rest) = _
  rw [decode_cons, if_neg hz, if_neg hw, sextets_high h,
    sextetOf_digitOf (bits / 64 % 64) (by omega), sextetOf_digitOf (bits % 64) (by omega), hbits]

/-- Two padding characters leave one byte. -/
theorem decode_one {x y : Char} {a : UInt8}
    (h : sextetOf x * 262144 + sextetOf y * 4096 = a.toNat * 65536 + (0 : UInt8).toNat * 256 +
      (0 : UInt8).toNat) :
    decode [x, y, '=', '='] = [a] := by
  rw [decode_cons, if_pos rfl, h, bytesOf_bits]
  rfl

/-- One padding character leaves two bytes. -/
theorem decode_two {x y z : Char} {a b : UInt8} (hz : z ≠ '=')
    (h : sextetOf x * 262144 + sextetOf y * 4096 + sextetOf z * 64 =
      a.toNat * 65536 + b.toNat * 256 + (0 : UInt8).toNat) :
    decode [x, y, z, '='] = [a, b] := by
  rw [decode_cons, if_neg hz, if_pos rfl, h, bytesOf_bits]
  rfl

theorem decode_encode : ∀ bytes : ByteString, decode (encode bytes) = bytes
  | [] => rfl
  | [a] => by
    have ha := a.toNat_lt
    refine decode_one ((sextets_high (by omega)).trans ?_)
    rw [UInt8.toNat_zero]
    omega
  | [a, b] => by
    have ha := a.toNat_lt
    have hb := b.toNat_lt
    refine decode_two (digitOf_ne_padding _) ?_
    rw [sextets_high (by omega), sextetOf_digitOf _ (by omega), UInt8.toNat_zero]
    omega
  | a :: b :: c :: rest => by
    have ha := a.toNat_lt
    have hb := b.toNat_lt
    have hc := c.toNat_lt
    rw [encode, decode_digitsOf (by omega), bytesOf_bits, decode_encode rest]
    rfl

/-! ### The form for URLs -/

/-- The byte of a character in the alphabet for URLs. -/
def urlByte (digit : Char) : UInt8 :=
  if digit = '+' then 0x2D else if digit = '/' then 0x5F else digit.toNat.toUInt8

def urlAlphabet : ByteString :=
  alphabet.map urlByte

def padding (length : ℕ) : List Char :=
  List.replicate ((4 - length % 4) % 4) '='

/-- `base64.RawURLEncoding.EncodeToString`. -/
def encodeRawUrl (bytes : ByteString) : ByteString :=
  ((encode bytes).filter (· != '=')).map urlByte

/-- `base64.RawURLEncoding.DecodeString`; line ends are skipped. -/
def decodeRawUrl (text : ByteString) : Option ByteString :=
  let digits := text.filter fun byte ↦ byte != 0x0D && byte != 0x0A
  if digits.all urlAlphabet.contains && digits.length % 4 != 1 then
    some (decode (digits.map (fun byte ↦ digitOf (urlAlphabet.idxOf byte)) ++
      padding digits.length))
  else none

theorem nodup_urlAlphabet : urlAlphabet.Nodup := by
  rw [urlAlphabet, alphabet_eq]
  decide

theorem visible_urlAlphabet {byte : UInt8} (h : byte ∈ urlAlphabet) :
    0x21 ≤ byte ∧ byte < 0x7F := by
  have hall : urlAlphabet.all (fun byte ↦ decide (0x21 ≤ byte ∧ byte < 0x7F)) = true := by
    rw [urlAlphabet, alphabet_eq]
    rfl
  exact of_decide_eq_true (List.all_eq_true.1 hall byte h)

/-- What the form for URLs needs of each character of the alphabet. -/
theorem urlByte_spec {digit : Char} (h : digit ∈ alphabet) :
    digit ≠ '=' ∧ urlByte digit ∈ urlAlphabet ∧
      digitOf (urlAlphabet.idxOf (urlByte digit)) = digit ∧
      0x21 ≤ urlByte digit ∧ urlByte digit < 0x7F := by
  have hmem : urlByte digit ∈ urlAlphabet := List.mem_map_of_mem h
  refine ⟨fun heq ↦ padding_notMem_alphabet (heq ▸ h), hmem, ?_, visible_urlAlphabet hmem⟩
  obtain ⟨i, rfl⟩ := List.mem_iff_get.1 h
  have hi : i.val < urlAlphabet.length := by
    rw [urlAlphabet, List.length_map]
    exact i.isLt
  have hbyte : urlByte (alphabet.get i) = urlAlphabet.get ⟨i.val, hi⟩ :=
    (List.getElem_map urlByte).symm
  rw [hbyte, List.get_eq_getElem, nodup_urlAlphabet.idxOf_getElem i.val hi, digitOf,
    List.getD_eq_getElem?_getD, List.getElem?_eq_getElem i.isLt]
  rfl

theorem digitsOf_mem {bits : ℕ} {digit : Char} (h : digit ∈ digitsOf bits) : digit ∈ alphabet := by
  simp only [digitsOf, List.mem_cons, List.not_mem_nil, or_false] at h
  rcases h with rfl | rfl | rfl | rfl <;> exact digitOf_mem _

/-- Encoded bytes are characters of the alphabet and the padding of their number. -/
theorem exists_encode_eq : ∀ bytes : ByteString, ∃ body : List Char,
    encode bytes = body ++ padding body.length ∧ (∀ digit ∈ body, digit ∈ alphabet) ∧
      body.length % 4 ≠ 1
  | [] => ⟨[], rfl, fun _ h ↦ absurd h List.not_mem_nil, by decide⟩
  | [a] => ⟨_, rfl, fun _ h ↦ digitsOf_mem (List.mem_of_mem_take h),
      Nat.succ_ne_self 1⟩
  | [a, b] => ⟨_, rfl, fun _ h ↦ digitsOf_mem (List.mem_of_mem_take h), Nat.succ_succ_ne_one 1⟩
  | a :: b :: c :: rest => by
    obtain ⟨body, hbody, halphabet, hlength⟩ := exists_encode_eq rest
    refine ⟨digitsOf (a.toNat * 65536 + b.toNat * 256 + c.toNat) ++ body, ?_, ?_, ?_⟩
    · have hpadding : padding (digitsOf (a.toNat * 65536 + b.toNat * 256 + c.toNat) ++
          body).length = padding body.length := by
        rw [List.length_append, show (digitsOf _).length = 4 from rfl, padding, padding,
          Nat.add_mod_left]
      rw [encode, hbody, hpadding, List.append_assoc]
    · intro digit hdigit
      rcases List.mem_append.1 hdigit with h | h
      · exact digitsOf_mem h
      · exact halphabet digit h
    · rw [List.length_append, show (digitsOf _).length = 4 from rfl, Nat.add_mod_left]
      exact hlength

/-- The form for URLs is the characters without the padding. -/
theorem exists_encodeRawUrl_eq (bytes : ByteString) : ∃ body : List Char,
    encodeRawUrl bytes = body.map urlByte ∧ encode bytes = body ++ padding body.length ∧
      (∀ digit ∈ body, digit ∈ alphabet) ∧ body.length % 4 ≠ 1 := by
  obtain ⟨body, hbody, halphabet, hlength⟩ := exists_encode_eq bytes
  refine ⟨body, ?_, hbody, halphabet, hlength⟩
  have hkept : body.filter (· != '=') = body := by
    rw [List.filter_eq_self]
    intro digit hdigit
    exact bne_iff_ne.2 (urlByte_spec (halphabet digit hdigit)).1
  have hdropped : (padding body.length).filter (· != '=') = [] := by
    rw [List.filter_eq_nil_iff]
    intro digit hdigit
    rw [List.eq_of_mem_replicate hdigit]
    decide
  rw [encodeRawUrl, hbody, List.filter_append, hkept, hdropped, List.append_nil]

/-- The form for URLs is made of visible ASCII characters. -/
theorem encodeRawUrl_visible {bytes : ByteString} {byte : UInt8} (h : byte ∈ encodeRawUrl bytes) :
    0x21 ≤ byte ∧ byte < 0x7F := by
  obtain ⟨body, hbody, -, halphabet, -⟩ := exists_encodeRawUrl_eq bytes
  rw [hbody, List.mem_map] at h
  obtain ⟨digit, hdigit, rfl⟩ := h
  exact (urlByte_spec (halphabet digit hdigit)).2.2.2

theorem encodeRawUrl_ne_nil {bytes : ByteString} (h : bytes ≠ []) : encodeRawUrl bytes ≠ [] := by
  intro hnil
  obtain ⟨body, hbody, hencode, -, -⟩ := exists_encodeRawUrl_eq bytes
  rw [hnil] at hbody
  rw [List.map_eq_nil_iff.1 hbody.symm] at hencode
  apply h
  rw [← decode_encode bytes, hencode]
  rfl

theorem decodeRawUrl_encodeRawUrl (bytes : ByteString) :
    decodeRawUrl (encodeRawUrl bytes) = some bytes := by
  obtain ⟨body, hbody, hencode, halphabet, hlength⟩ := exists_encodeRawUrl_eq bytes
  have hvisible : (body.map urlByte).filter (fun byte ↦ byte != 0x0D && byte != 0x0A) =
      body.map urlByte := by
    rw [List.filter_eq_self, ← hbody]
    intro byte hbyte
    have hlow := (encodeRawUrl_visible hbyte).1
    simp only [Bool.and_eq_true, bne_iff_ne]
    constructor
    · rintro rfl
      exact absurd hlow (by decide)
    · rintro rfl
      exact absurd hlow (by decide)
  have hall : (body.map urlByte).all urlAlphabet.contains = true := by
    rw [List.all_map, List.all_eq_true]
    intro digit hdigit
    exact List.contains_iff_mem.2 (urlByte_spec (halphabet digit hdigit)).2.1
  have hdigits : (body.map urlByte).map (fun byte ↦ digitOf (urlAlphabet.idxOf byte)) = body := by
    rw [List.map_map]
    conv_rhs => rw [← List.map_id body]
    exact List.map_congr_left fun digit hdigit ↦ (urlByte_spec (halphabet digit hdigit)).2.2.1
  rw [decodeRawUrl, hbody]
  simp only [hvisible, hall, hdigits, List.length_map, Bool.true_and, bne_iff_ne]
  rw [if_pos hlength, ← hencode, decode_encode]

end WebLens.Lib.Base64
