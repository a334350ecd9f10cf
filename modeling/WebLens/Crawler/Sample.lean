import WebLens.Crawler.System
import WebLens.Lib.Sha256

/-!
# A configuration to run the crawler with

`Env.sample` fills in what the model leaves open: SHA-256, the usual text of identifiers, ASCII
case and space, a URL library that leaves normalized URLs alone, and a `jsonb` type that keeps the
text it is given. Its calendar and its texts of instants are right for the first second of the
first month of time, which is all that the runs below need.
-/

set_option autoImplicit false
set_option relaxedAutoImplicit false

namespace WebLens.Crawler

open Lib Lib.Utf8 Lib.Json

/-! ### Texts -/

/-- Hexadecimal digits are ASCII and no dashes. -/
theorem hexDigit_spec {value : ℕ} (h : value < 16) : hexDigit value < 0x80 ∧
    hexDigit value ≠ 0x2D := by
  interval_cases value <;> decide

/-- The hexadecimal digits of a number, at least 32 of them, lowest first. -/
def hexDigits (value : ℕ) : List ℕ :=
  Nat.digits 16 value ++ List.replicate (32 - (Nat.digits 16 value).length) 0

theorem lt_of_mem_hexDigits {value digit : ℕ} (h : digit ∈ hexDigits value) : digit < 16 := by
  rcases List.mem_append.1 h with h | h
  · exact Nat.digits_lt_base (by decide) h
  · rw [List.eq_of_mem_replicate h]
    decide

theorem ofDigits_hexDigits (value : ℕ) : Nat.ofDigits 16 (hexDigits value) = value := by
  rw [hexDigits, Nat.ofDigits_append, Nat.ofDigits_replicate_zero, mul_zero, add_zero,
    Nat.ofDigits_digits]

/-- Groups of digits, with dashes between them. -/
def dashed : List ℕ → ByteString → ByteString
  | [], digits => digits
  | size :: sizes, digits => digits.take size ++ 0x2D :: dashed sizes (digits.drop size)

/-- Without its dashes a dashed text is what it was. -/
theorem filter_dashed (sizes : List ℕ) {digits : ByteString} (h : ∀ byte ∈ digits, byte ≠ 0x2D) :
    (dashed sizes digits).filter (fun byte ↦ decide (byte ≠ 0x2D)) = digits := by
  induction sizes generalizing digits with
  | nil => exact List.filter_eq_self.2 fun byte hmem ↦ decide_eq_true (h byte hmem)
  | cons size sizes ih =>
    have htake : (digits.take size).filter (fun byte ↦ decide (byte ≠ 0x2D)) = digits.take size :=
      List.filter_eq_self.2 fun byte hmem ↦ decide_eq_true (h byte (List.mem_of_mem_take hmem))
    rw [dashed, List.filter_append, htake, List.filter_cons_of_neg (by simp),
      ih fun byte hmem ↦ h byte (List.mem_of_mem_drop hmem), List.take_append_drop]

/-- Every byte of a dashed text is a digit or a dash. -/
theorem mem_dashed (sizes : List ℕ) {digits : ByteString} {byte : UInt8}
    (h : byte ∈ dashed sizes digits) : byte ∈ digits ∨ byte = 0x2D := by
  induction sizes generalizing digits with
  | nil => exact .inl h
  | cons size sizes ih =>
    rcases List.mem_append.1 h with h | h
    · exact .inl (List.mem_of_mem_take h)
    · rcases List.mem_cons.1 h with rfl | h
      · exact .inr rfl
      · exact (ih h).imp_left List.mem_of_mem_drop

/-- The text of a UUID. -/
def uuidCodec : TextCodec Uuid where
  text id := dashed [8, 4, 4, 4] ((hexDigits id).reverse.map hexDigit)
  parse bytes := some (Nat.ofDigits 16
    ((bytes.filter fun byte ↦ decide (byte ≠ 0x2D)).reverse.map fun byte ↦
      (hexValue byte).getD 0))
  parse_text id := by
    have hdigits : ∀ byte ∈ (hexDigits id).reverse.map hexDigit, byte ≠ 0x2D := by
      intro byte hmem
      obtain ⟨digit, hdigit, rfl⟩ := List.mem_map.1 hmem
      exact (hexDigit_spec (lt_of_mem_hexDigits (List.mem_reverse.1 hdigit))).2
    rw [filter_dashed _ hdigits, ← List.map_reverse, List.reverse_reverse, List.map_map,
      Option.some.injEq]
    conv_rhs => rw [← ofDigits_hexDigits id, ← List.map_id (hexDigits id)]
    refine congrArg _ (List.map_congr_left fun digit hdigit ↦ ?_)
    simp [hexValue_hexDigit (lt_of_mem_hexDigits hdigit)]
  valid_text id := by
    refine valid_of_ascii fun byte hmem ↦ ?_
    rcases mem_dashed _ hmem with hmem | rfl
    · obtain ⟨digit, hdigit, rfl⟩ := List.mem_map.1 hmem
      exact (hexDigit_spec (lt_of_mem_hexDigits (List.mem_reverse.1 hdigit))).1
    · decide

/-- The text of the zero time, and shortened texts of later instants. -/
def timeCodec : TextCodec Instant where
  text instant :=
    if instant = 0 then ofText "0001-01-01T00:00:00Z"
    else ofText "0001-01-01T00:00:00." ++ encodeNat instant
  parse bytes :=
    if bytes = ofText "0001-01-01T00:00:00Z" then some 0
    else (readNat (bytes.drop 20)).map Prod.fst
  parse_text instant := by
    by_cases hzero : instant = 0
    · rw [if_pos hzero, if_pos rfl, hzero]
    · have hne : ofText "0001-01-01T00:00:00." ++ encodeNat instant ≠
          ofText "0001-01-01T00:00:00Z" := by
        intro heq
        have := congrArg (·[19]?) heq
        rw [List.getElem?_append_left (by decide +kernel)] at this
        revert this
        decide +kernel
      have hread : readNat (encodeNat instant ++ []) = some (instant, []) :=
        readNat_encodeNat instant (by simp [NoDigit])
      rw [List.append_nil] at hread
      rw [if_neg hzero, if_neg hne,
        show (ofText "0001-01-01T00:00:00." ++ encodeNat instant).drop 20 = encodeNat instant from
          List.drop_left' (by decide +kernel), hread]
      rfl
  valid_text instant := by
    split_ifs with hzero
    · exact valid_ofText _
    · refine valid_of_ascii fun byte hmem ↦ ?_
      rcases List.mem_append.1 hmem with hmem | hmem
      · have hall : ∀ byte ∈ ofText "0001-01-01T00:00:00.", byte < 0x80 := by
          decide +kernel
        exact hall byte hmem
      · rw [encodeNat, if_neg hzero] at hmem
        obtain ⟨digit, hdigit, rfl⟩ := List.mem_map.1 hmem
        have hlt := Nat.digits_lt_base (by decide) (List.mem_reverse.1 hdigit)
        interval_cases digit <;> decide

/-! ### The configuration -/

/-- The sample configuration. -/
def Env.sample : Env where
  hostConcurrency := 2
  normalizeURL := some
  isHTTPURLInScope := fun _ _ ↦ true
  parseURL := fun _ ↦ some {
    scheme := ofText "https", host := ofText "example.com", hostname := ofText "example.com",
    hasUser := false }
  toLower := Char.toLower
  isSpace := fun c ↦ c = ' '
  equalFold := fun first second ↦ decide (first = second)
  monthOf := fun _ ↦ 0
  sha256 := Sha256.sum
  uuidText := uuidCodec
  timeText := timeCodec
  jsonb := some

/-- A command for a scan of `https://example.com/` with the given page limit. -/
def ScanCommandEnvelope.sample (maxPages : ℤ) : ScanCommandEnvelope where
  messageId := 101
  aggregateType := "SCAN"
  aggregateId := 102
  aggregateVersion := 0
  messageType := scanRequestedV1
  contractVersion := 1
  correlationId := 103
  occurredAt := 1
  payload := {
    scanId := 102, ownerId := 104, websiteId := 105
    targetURL := ofText "https://example.com/", targetHostname := ofText "example.com"
    maxPages := maxPages, maxDepth := 3, maxResponseBytes := 1_048_576, maxDurationSeconds := 600
    maxRedirects := 5, maxConcurrency := 2, collectorVersion := ofText "1.0" }

/-- The lease that claiming the seed page of the sample scan gives. -/
def PageLease.sample (maxPages : ℤ) : PageLease where
  retentionMonth := 0
  pageId := 2
  executionId := 1
  scanId := 102
  ownerId := 104
  websiteId := 105
  correlationId := 103
  normalizedURL := ofText "https://example.com/"
  hostname := ofText "example.com"
  discoveryDepth := 0
  leaseOwner := 3
  leaseGeneration := 1
  hostSlotNo := 1
  hostGeneration := 1
  maxPages := maxPages
  maxDepth := 3
  maxResponseBytes := 1_048_576
  maxDuration := 600 * second
  maxRedirects := 5
  collectorVersion := ofText "1.0"
  acceptedAt := 1

end WebLens.Crawler
