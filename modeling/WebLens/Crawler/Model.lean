import WebLens.Lib.GoJson

/-!
# The crawler's data model

The values that the crawler's store, its workers and its messages exchange: leases, page results,
analytics batches, and the commands and events of the Control Plane contract, with the validation
of the commands.

Identifiers are numbers; `0` is the nil identifier. Instants and durations are numbers of
nanoseconds; the instant `0` is the zero time. Strings that come from the open web are byte
strings. Statuses are the values the database admits.
-/

set_option autoImplicit false
set_option relaxedAutoImplicit false

namespace WebLens.Crawler

open Lib Lib.Utf8

/-- A UUID, read as a 128-bit number. -/
abbrev Uuid := ℕ

/-- A point in time, in nanoseconds. -/
abbrev Instant := ℕ

/-- A length of time, in nanoseconds. -/
abbrev Duration := ℕ

/-- One second. -/
def second : Duration := 1_000_000_000

/-- A Go slice; `none` is the nil slice. -/
abbrev Slice (α : Type) := Option (List α)

/-- The elements of a slice. -/
def Slice.elements {α : Type} (slice : Slice α) : List α :=
  slice.getD []

/-- A parsed URL, as far as the commands look at it. -/
structure ParsedURL where
  scheme : ByteString
  host : ByteString
  hostname : ByteString
  hasUser : Bool

/-- What the crawler's transactions take from outside this code: its configuration, the URL
library, Go's Unicode tables, calendar, hash and text forms, and PostgreSQL's `jsonb` type, which
stores a JSON text and gives back a text of its own, or refuses it. -/
structure Env where
  hostConcurrency : ℕ
  normalizeURL : ByteString → Option ByteString
  isHTTPURLInScope : ByteString → ByteString → Bool
  parseURL : ByteString → Option ParsedURL
  toLower : Char → Char
  isSpace : Char → Bool
  equalFold : ByteString → ByteString → Bool
  monthOf : Instant → Instant
  sha256 : ByteString → ByteString
  uuidText : TextCodec Uuid
  timeText : TextCodec Instant
  jsonb : ByteString → Option ByteString

/-- `strings.ToLower`. -/
def Env.lowerCase (env : Env) (value : ByteString) : ByteString :=
  (runes value).flatMap fun rune ↦ encodeRune (rune.map env.toLower)

/-- `strings.TrimSpace(value) == ""`. -/
def Env.isBlank (env : Env) (value : ByteString) : Bool :=
  (runes value).all fun rune ↦ match rune with
    | some c => env.isSpace c
    | none => false

/-! ### Statuses -/

/-- `crawl_executions.status`. -/
inductive ExecutionStatus
  | queued | running | cancelRequested | indexing | completed | partialSuccess | failed | cancelled
  deriving DecidableEq, Repr

/-- `isTerminalExecution`. -/
def ExecutionStatus.isTerminal : ExecutionStatus → Bool
  | .completed | .partialSuccess | .failed | .cancelled => true
  | .queued | .running | .cancelRequested | .indexing => false

/-- `scan_pages.status`. -/
inductive PageStatus
  | queued | leased | persisting | succeeded | failed | skipped | cancelled
  deriving DecidableEq, Repr

/-- `scan_pages.pending_terminal_status`: the status a page takes once its analytics are
delivered. -/
inductive TerminalStatus
  | succeeded | failed | skipped
  deriving DecidableEq, Repr

/-- The page status of a pending terminal status. -/
def TerminalStatus.toPageStatus : TerminalStatus → PageStatus
  | .succeeded => .succeeded
  | .failed => .failed
  | .skipped => .skipped

/-- The status of a row of an outbox. -/
inductive DeliveryStatus
  | pending | claimed | delivered | dead
  deriving DecidableEq, Repr

/-- `inbox_messages.outcome`. -/
inductive InboxOutcome
  | applied | ignoredStale
  deriving DecidableEq, Repr

/-- `message_type` of a command. -/
inductive CommandType
  | scanRequested | scanCancelRequested
  deriving DecidableEq, Repr

/-! ### Leases and results -/

/-- `model.PageLease`. -/
structure PageLease where
  retentionMonth : Instant
  pageId : Uuid
  executionId : Uuid
  scanId : Uuid
  ownerId : Uuid
  websiteId : Uuid
  correlationId : Uuid
  normalizedURL : ByteString
  hostname : ByteString
  discoveryDepth : ℕ
  leaseOwner : Uuid
  leaseGeneration : ℕ
  hostSlotNo : ℕ
  hostGeneration : ℕ
  maxPages : ℤ
  maxDepth : ℤ
  maxResponseBytes : ℤ
  maxDuration : Duration
  maxRedirects : ℤ
  collectorVersion : ByteString
  acceptedAt : Instant
  deriving DecidableEq

/-- `model.Hreflang`. -/
structure Hreflang where
  language : ByteString
  url : ByteString

/-- `model.DiscoveredLink`. -/
structure DiscoveredLink where
  targetURL : ByteString
  anchorText : ByteString
  tag : ByteString
  relValues : Slice ByteString
  isInternal : Bool
  isFollowable : Bool
  ordinal : UInt32

/-- A value of a finding's evidence. Its numbers are counts, statuses and positions, so small that
a `float64`, as which Go reads them back, holds them exactly. -/
inductive EvidenceValue
  | string (value : ByteString)
  | int (value : Int64) (exact : value.toInt.natAbs ≤ 2 ^ 53)
  | ints (values : Slice Int64) (exact : ∀ value ∈ values.elements, value.toInt.natAbs ≤ 2 ^ 53)
  | strings (values : Slice ByteString)

/-- A finding's evidence: a map from distinct names, which are text constants of the rules, to
values. -/
structure Evidence where
  entries : List (ByteString × EvidenceValue)
  nodup : (entries.map Prod.fst).Nodup
  valid : ∀ name ∈ entries.map Prod.fst, Utf8.valid name = true

/-- `model.Finding`. -/
structure Finding where
  findingId : Uuid
  ruleId : ByteString
  ruleVersion : UInt32
  category : ByteString
  severity : ByteString
  code : ByteString
  message : ByteString
  evidence : Evidence

/-- `model.PageResult`. -/
structure PageResult where
  finalURL : ByteString := []
  fetchOutcome : ByteString := []
  errorCode : ByteString := []
  errorMessage : ByteString := []
  statusCode : Int64 := 0
  contentType : ByteString := []
  redirectURLs : Slice ByteString := none
  redirectCodes : Slice UInt16 := none
  responseBytes : UInt64 := 0
  dnsMillis : UInt32 := 0
  connectMillis : UInt32 := 0
  tlsMillis : UInt32 := 0
  ttfbMillis : UInt32 := 0
  dnsObserved : Bool := false
  connectObserved : Bool := false
  tlsObserved : Bool := false
  ttfbObserved : Bool := false
  totalMillis : UInt32 := 0
  title : ByteString := []
  description : ByteString := []
  metaKeywords : ByteString := []
  canonicalURL : ByteString := []
  canonicalRelation : ByteString := []
  metaRobots : ByteString := []
  xRobotsTag : ByteString := []
  indexabilityReason : ByteString := []
  htmlLang : ByteString := []
  h1 : Slice ByteString := none
  h2 : Slice ByteString := none
  h3 : Slice ByteString := none
  h4 : Slice ByteString := none
  h5 : Slice ByteString := none
  h6 : Slice ByteString := none
  hreflang : Slice Hreflang := none
  openGraphTitle : ByteString := []
  openGraphDescription : ByteString := []
  openGraphImageURL : ByteString := []
  schemaOrgTypes : Slice ByteString := none
  schemaOrgItemCount : UInt16 := 0
  schemaOrgValidCount : UInt16 := 0
  schemaOrgErrorCount : UInt16 := 0
  schemaOrgWarningCount : UInt16 := 0
  schemaOrgIssueCodes : Slice ByteString := none
  wordCount : UInt32 := 0
  internalLinks : UInt32 := 0
  externalLinks : UInt32 := 0
  imageCount : UInt32 := 0
  missingAlt : UInt32 := 0
  scriptCount : UInt32 := 0
  stylesheetCount : UInt32 := 0
  isIndexable : Bool := false
  links : Slice DiscoveredLink := none
  findings : Slice Finding := none
  observedAt : Instant := 0

/-- `model.AnalyticsPayload`. -/
structure AnalyticsPayload where
  schemaVersion : UInt16
  ownerId : Uuid
  scanId : Uuid
  retentionMonth : Instant
  pageId : Uuid
  recordVersion : UInt64
  requestedURL : ByteString
  normalizedURL : ByteString
  finalURL : ByteString
  hostname : ByteString
  discoveryDepth : UInt16
  result : PageResult
  collectorVersion : ByteString
  parserVersion : ByteString

/-- `model.AnalyticsBatch`. -/
structure AnalyticsBatch where
  id : Uuid
  retentionMonth : Instant
  executionId : Uuid
  ownerId : Uuid
  pageId : Uuid
  resultVersion : ℕ
  payload : ByteString
  payloadSHA256 : ByteString
  deliveryAttempts : ℕ
  leaseOwner : Uuid
  deriving DecidableEq

/-! ### Commands and events -/

/-- `contracts.ScanRequestedPayload`. -/
structure ScanRequestedPayload where
  scanId : Uuid
  ownerId : Uuid
  websiteId : Uuid
  targetURL : ByteString
  targetHostname : ByteString
  maxPages : ℤ
  maxDepth : ℤ
  maxResponseBytes : ℤ
  maxDurationSeconds : ℤ
  maxRedirects : ℤ
  maxConcurrency : ℤ
  collectorVersion : ByteString

/-- `contracts.ScanCommandEnvelope`. -/
structure ScanCommandEnvelope where
  messageId : Uuid
  aggregateType : String
  aggregateId : Uuid
  aggregateVersion : ℤ
  messageType : String
  contractVersion : ℤ
  correlationId : Uuid
  occurredAt : Instant
  payload : ScanRequestedPayload

/-- `contracts.ScanCancelPayload`. -/
structure ScanCancelPayload where
  scanId : Uuid
  ownerId : Uuid
  requestedAt : Instant

/-- `contracts.ScanCancelCommandEnvelope`. -/
structure ScanCancelCommandEnvelope where
  messageId : Uuid
  aggregateType : String
  aggregateId : Uuid
  aggregateVersion : ℤ
  messageType : String
  contractVersion : ℤ
  correlationId : Uuid
  occurredAt : Instant
  payload : ScanCancelPayload

/-- `contracts.ScanProgressPayload`. -/
structure ScanProgressPayload where
  scanId : Uuid
  ownerId : Uuid
  status : ExecutionStatus
  discoveredCount : ℤ
  queuedCount : ℤ
  processedCount : ℤ
  succeededCount : ℤ
  failedCount : ℤ
  analyticsExpectedCount : ℤ
  analyticsPublishedCount : ℤ
  terminalCode : String
  terminalMessage : String
  deriving DecidableEq

/-- `contracts.ScanEventEnvelope`. -/
structure ScanEventEnvelope where
  messageId : Uuid
  aggregateType : String
  aggregateId : Uuid
  aggregateVersion : ℤ
  messageType : String
  contractVersion : ℤ
  correlationId : Uuid
  occurredAt : Instant
  payload : ScanProgressPayload
  deriving DecidableEq

/-- `contracts.ContractVersionV1`. -/
def contractVersionV1 : ℤ := 1

/-- `contracts.ScanRequestedV1`. -/
def scanRequestedV1 : String := "SCAN_REQUESTED"

/-- `contracts.ScanCancelV1`. -/
def scanCancelV1 : String := "SCAN_CANCEL_REQUESTED"

/-- `contracts.ScanProgressV1`. -/
def scanProgressV1 : String := "SCAN_PROGRESS"

/-- `contracts.MaxScanPages`. -/
def maxScanPages : ℤ := 1_000_000

/-- `contracts.MaxScanDurationSeconds`. -/
def maxScanDurationSeconds : ℤ := 7 * 24 * 60 * 60

/-- `contracts.MaxScanConcurrency`. -/
def maxScanConcurrency : ℤ := 10_000

/-- The problem list with one entry when the condition holds. -/
def problemIf (condition : Prop) [Decidable condition] (problem : String) : List String :=
  if condition then [problem] else []

/-- The problems of a target URL in `ScanCommandEnvelope.Validate`. -/
def ScanRequestedPayload.targetProblems (env : Env) (payload : ScanRequestedPayload) :
    List String :=
  match env.parseURL payload.targetURL with
  | none => ["targetUrl must be an absolute HTTP(S) URL without userinfo"]
  | some u =>
    if (u.scheme ≠ ofText "http" ∧ u.scheme ≠ ofText "https") ∨ u.host = [] ∨ u.hasUser = true then
      ["targetUrl must be an absolute HTTP(S) URL without userinfo"]
    else problemIf (env.equalFold u.hostname payload.targetHostname = false)
      "targetHostname must match targetUrl"

/-- `ScanCommandEnvelope.Validate`: the problems it joins; the command is valid without any. -/
def ScanCommandEnvelope.validate (env : Env) (e : ScanCommandEnvelope) : List String :=
  problemIf (e.messageId = 0 ∨ e.aggregateId = 0 ∨ e.correlationId = 0)
      "messageId, aggregateId and correlationId are required" ++
    problemIf (e.aggregateType ≠ "SCAN" ∨ e.messageType ≠ scanRequestedV1 ∨
        e.contractVersion ≠ contractVersionV1) "unsupported command contract" ++
    problemIf (e.aggregateVersion < 0 ∨ e.occurredAt = 0)
      "aggregateVersion and occurredAt are invalid" ++
    problemIf (e.aggregateId ≠ e.payload.scanId ∨ e.payload.scanId = 0 ∨ e.payload.ownerId = 0 ∨
        e.payload.websiteId = 0) "payload identifiers do not match the aggregate" ++
    e.payload.targetProblems env ++
    problemIf (e.payload.maxPages < 1 ∨ e.payload.maxPages > maxScanPages ∨
        e.payload.maxDepth < 0 ∨ e.payload.maxDepth > 10)
      "page or depth limit is outside the V1 policy" ++
    problemIf (e.payload.maxResponseBytes < 1024 ∨ e.payload.maxResponseBytes > 52_428_800)
      "response byte limit is outside the V1 policy" ++
    problemIf (e.payload.maxDurationSeconds < 1 ∨
        e.payload.maxDurationSeconds > maxScanDurationSeconds ∨ e.payload.maxRedirects < 0 ∨
        e.payload.maxRedirects > 10 ∨ e.payload.maxConcurrency < 1 ∨
        e.payload.maxConcurrency > maxScanConcurrency)
      "execution limits are outside the V1 policy" ++
    problemIf (env.isBlank e.payload.collectorVersion = true ∨
        e.payload.collectorVersion.length > 64) "collectorVersion is invalid"

/-- `ScanCancelCommandEnvelope.Validate`. -/
def ScanCancelCommandEnvelope.validate (e : ScanCancelCommandEnvelope) : List String :=
  problemIf (e.messageId = 0 ∨ e.aggregateId = 0 ∨ e.correlationId = 0)
      "messageId, aggregateId and correlationId are required" ++
    problemIf (e.aggregateType ≠ "SCAN" ∨ e.messageType ≠ scanCancelV1 ∨
        e.contractVersion ≠ contractVersionV1) "unsupported cancellation contract" ++
    problemIf (e.aggregateVersion < 1 ∨ e.occurredAt = 0 ∨ e.payload.requestedAt = 0)
      "cancellation version and timestamps are invalid" ++
    problemIf (e.aggregateId ≠ e.payload.scanId ∨ e.payload.scanId = 0 ∨ e.payload.ownerId = 0)
      "cancellation identifiers do not match the aggregate"

/-- Without problems the condition does not hold. -/
@[simp]
theorem problemIf_eq_nil {condition : Prop} [Decidable condition] {problem : String} :
    problemIf condition problem = [] ↔ ¬ condition := by
  unfold problemIf
  split_ifs with h <;> simp [h]

/-- What a valid command promises about the limits of its scan. -/
theorem ScanCommandEnvelope.limits_of_validate {env : Env} {e : ScanCommandEnvelope}
    (h : e.validate env = []) :
    e.aggregateId = e.payload.scanId ∧ 0 ≤ e.aggregateVersion ∧ 1 ≤ e.payload.maxPages ∧
      e.payload.maxPages ≤ maxScanPages ∧ 0 ≤ e.payload.maxDepth := by
  simp only [validate, List.append_eq_nil_iff, problemIf_eq_nil, not_or, not_lt, not_not] at h
  obtain ⟨⟨⟨⟨⟨⟨⟨⟨-, -⟩, hversion⟩, hids⟩, -⟩, hpages⟩, -⟩, -⟩, -⟩ := h
  exact ⟨hids.1, hversion.1, hpages.1, hpages.2.1, hpages.2.2.1⟩

end WebLens.Crawler
