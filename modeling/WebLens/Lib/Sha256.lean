import WebLens.Lib.Utf8

/-!
# SHA-256

The hash of FIPS 180-4 on byte strings. Words are numbers below `2 ^ 32`.
-/

set_option autoImplicit false
set_option relaxedAutoImplicit false

namespace WebLens.Lib.Sha256

open Utf8

/-- The round constants: fractional parts of the cube roots of the first primes. -/
def roundConstants : List ℕ := [
  0x428a2f98, 0x71374491, 0xb5c0fbcf, 0xe9b5dba5, 0x3956c25b, 0x59f111f1, 0x923f82a4, 0xab1c5ed5,
  0xd807aa98, 0x12835b01, 0x243185be, 0x550c7dc3, 0x72be5d74, 0x80deb1fe, 0x9bdc06a7, 0xc19bf174,
  0xe49b69c1, 0xefbe4786, 0x0fc19dc6, 0x240ca1cc, 0x2de92c6f, 0x4a7484aa, 0x5cb0a9dc, 0x76f988da,
  0x983e5152, 0xa831c66d, 0xb00327c8, 0xbf597fc7, 0xc6e00bf3, 0xd5a79147, 0x06ca6351, 0x14292967,
  0x27b70a85, 0x2e1b2138, 0x4d2c6dfc, 0x53380d13, 0x650a7354, 0x766a0abb, 0x81c2c92e, 0x92722c85,
  0xa2bfe8a1, 0xa81a664b, 0xc24b8b70, 0xc76c51a3, 0xd192e819, 0xd6990624, 0xf40e3585, 0x106aa070,
  0x19a4c116, 0x1e376c08, 0x2748774c, 0x34b0bcb5, 0x391c0cb3, 0x4ed8aa4a, 0x5b9cca4f, 0x682e6ff3,
  0x748f82ee, 0x78a5636f, 0x84c87814, 0x8cc70208, 0x90befffa, 0xa4506ceb, 0xbef9a3f7, 0xc67178f2]

/-- The initial hash: fractional parts of the square roots of the first primes. -/
def initialHash : List ℕ := [
  0x6a09e667, 0xbb67ae85, 0x3c6ef372, 0xa54ff53a, 0x510e527f, 0x9b05688c, 0x1f83d9ab, 0x5be0cd19]

/-- Addition of words. -/
def add (x y : ℕ) : ℕ := (x + y) % 2 ^ 32

/-- Rotation of a word to the right. -/
def rotr (x n : ℕ) : ℕ := (x >>> n) ||| ((x <<< (32 - n)) % 2 ^ 32)

/-- The next word of the schedule; the words so far are listed latest first. -/
def nextWord (words : List ℕ) : ℕ :=
  let x := words.getD 14 0
  let y := words.getD 1 0
  add (add (words.getD 15 0) (rotr x 7 ^^^ rotr x 18 ^^^ (x >>> 3)))
    (add (words.getD 6 0) (rotr y 17 ^^^ rotr y 19 ^^^ (y >>> 10)))

/-- The schedule of a block, from its sixteen words listed latest first. -/
def schedule : ℕ → List ℕ → List ℕ
  | 0, words => words.reverse
  | n + 1, words => schedule n (nextWord words :: words)

/-- One round on the eight working words. -/
def round (working : List ℕ) (constant word : ℕ) : List ℕ :=
  match working with
  | [a, b, c, d, e, f, g, h] =>
    let choice := (e &&& f) ^^^ ((2 ^ 32 - 1 - e) &&& g)
    let majority := (a &&& b) ^^^ (a &&& c) ^^^ (b &&& c)
    let first := add (add h (rotr e 6 ^^^ rotr e 11 ^^^ rotr e 25)) (add choice (add constant word))
    let second := add (rotr a 2 ^^^ rotr a 13 ^^^ rotr a 22) majority
    [add first second, a, b, c, add d first, e, f, g]
  | _ => working

/-- The hash after one more block. -/
def compress (hash block : List ℕ) : List ℕ :=
  let words := schedule 48 block.reverse
  List.zipWith add hash
    ((List.zip roundConstants words).foldl (fun working step ↦ round working step.1 step.2) hash)

/-- The big-endian word of four bytes. -/
def word (bytes : ByteString) : ℕ :=
  bytes.foldl (fun value byte ↦ value * 256 + byte.toNat) 0

/-- The big-endian bytes of a number. -/
def bigEndian : ℕ → ℕ → ByteString
  | 0, _ => []
  | n + 1, value => bigEndian n (value / 256) ++ [UInt8.ofNat (value % 256)]

/-- The words of a padded message. -/
def wordsOf : ℕ → ByteString → List ℕ
  | 0, _ => []
  | n + 1, bytes => word (bytes.take 4) :: wordsOf n (bytes.drop 4)

/-- The hash after the blocks of sixteen words. -/
def compressAll : ℕ → List ℕ → List ℕ → List ℕ
  | 0, hash, _ => hash
  | n + 1, hash, words => compressAll n (compress hash (words.take 16)) (words.drop 16)

/-- `sha256.Sum256`. -/
def sum (message : ByteString) : ByteString :=
  let blocks := (message.length + 9 + 63) / 64
  let zeros := blocks * 64 - 9 - message.length
  let padded := message ++ 0x80 :: List.replicate zeros 0 ++ bigEndian 8 (8 * message.length)
  (compressAll blocks initialHash (wordsOf (blocks * 16) padded)).flatMap (bigEndian 4)

example : sum (ofText "abc") = [
    0xba, 0x78, 0x16, 0xbf, 0x8f, 0x01, 0xcf, 0xea, 0x41, 0x41, 0x40, 0xde, 0x5d, 0xae, 0x22, 0x23,
    0xb0, 0x03, 0x61, 0xa3, 0x96, 0x17, 0x7a, 0x9c, 0xb4, 0x10, 0xff, 0x61, 0xf2, 0x00, 0x15,
    0xad] := by
  decide +kernel

/-! ### Hexadecimal digests -/

/-- The hexadecimal text of some bytes. -/
def hex (bytes : ByteString) : String :=
  String.ofList (bytes.flatMap fun byte ↦
    [Nat.digitChar (byte.toNat / 16), Nat.digitChar (byte.toNat % 16)])

theorem length_bigEndian (n value : ℕ) : (bigEndian n value).length = n := by
  induction n generalizing value with
  | zero => rfl
  | succ n ih =>
    unfold bigEndian
    rw [List.length_append, ih, List.length_singleton]

theorem length_round {working : List ℕ} (h : working.length = 8) (constant word : ℕ) :
    (round working constant word).length = 8 := by
  unfold round
  split
  · rfl
  · exact h

theorem length_compress {hash : List ℕ} (h : hash.length = 8) (block : List ℕ) :
    (compress hash block).length = 8 := by
  unfold compress
  have hrounds : ∀ steps : List (ℕ × ℕ), ∀ working : List ℕ, working.length = 8 →
      (steps.foldl (fun working step ↦ round working step.1 step.2) working).length = 8 := by
    intro steps
    induction steps with
    | nil => exact fun working hworking ↦ hworking
    | cons step rest ih => exact fun working hworking ↦ ih _ (length_round hworking _ _)
  rw [List.length_zipWith, hrounds _ hash h, h, min_self]

theorem length_compressAll {hash : List ℕ} (h : hash.length = 8) (blocks : ℕ) (words : List ℕ) :
    (compressAll blocks hash words).length = 8 := by
  induction blocks generalizing hash words with
  | zero => exact h
  | succ blocks ih => exact ih (length_compress h _) _

theorem length_sum (message : ByteString) : (sum message).length = 32 := by
  unfold sum
  dsimp only
  have hwords : ∀ words : List ℕ, (words.flatMap (bigEndian 4)).length = 4 * words.length := by
    intro words
    induction words with
    | nil => rfl
    | cons word rest ih =>
      rw [List.flatMap_cons, List.length_append, ih, length_bigEndian, List.length_cons, Nat.mul_add]
      exact Nat.add_comm _ _
  rw [hwords, length_compressAll rfl]

theorem length_hex (bytes : ByteString) : (hex bytes).toList.length = 2 * bytes.length := by
  unfold hex
  rw [String.toList_ofList]
  induction bytes with
  | nil => rfl
  | cons byte rest ih =>
    rw [List.flatMap_cons, List.length_append, ih]
    show 2 + 2 * rest.length = 2 * (rest.length + 1)
    omega

theorem mem_hex {bytes : ByteString} {c : Char} (h : c ∈ (hex bytes).toList) :
    c ∈ "0123456789abcdef".toList := by
  unfold hex at h
  rw [String.toList_ofList] at h
  obtain ⟨byte, -, hc⟩ := List.mem_flatMap.1 h
  have hdigit : ∀ n < 16, Nat.digitChar n ∈ "0123456789abcdef".toList := by decide
  rcases List.mem_cons.1 hc with rfl | hc
  · exact hdigit _ (Nat.div_lt_of_lt_mul byte.toNat_lt)
  · rw [List.mem_singleton.1 hc]
    exact hdigit _ (Nat.mod_lt _ (by decide))

theorem hex_sum_ne_empty (message : ByteString) : hex (sum message) ≠ "" := by
  intro h
  have hlength := length_hex (sum message)
  rw [h, length_sum] at hlength
  cases hlength

end WebLens.Lib.Sha256
