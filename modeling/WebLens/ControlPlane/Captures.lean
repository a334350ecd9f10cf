import Mathlib.Algebra.Order.Ring.Nat
import WebLens.Capture.Model
import WebLens.Lib.Table
import WebLens.Lib.Transaction

/-!
# Capture requests of the Control Plane

The table of capture requests, the request for a capture, and the progress events of the capture
worker: what `CaptureService.create` enqueues and what `CaptureEventService.consume` accepts. The
inbox is that of capture events, the outbox that of capture commands.
-/

set_option autoImplicit false
set_option relaxedAutoImplicit false

namespace WebLens.ControlPlane

open Lib Lib.Utf8 Lib.Transaction
open Capture (Uuid CaptureCommandPayload CaptureCommandEnvelope CaptureProgressPayload
  CaptureEventEnvelope ProgressStatus)

/-! ### Java texts -/

/-- The length of a text in UTF-16 code units. -/
def utf16Length (text : String) : ℕ :=
  (text.toList.map fun char ↦ if char.val < 0x10000 then 1 else 2).sum

/-- `Character.isWhitespace`. -/
def isWhitespace (char : Char) : Bool :=
  let code := char.toNat
  (decide (0x09 ≤ code) && decide (code ≤ 0x0D)) ||
    (decide (0x1C ≤ code) && decide (code ≤ 0x20)) || decide (code = 0x1680) ||
    (decide (0x2000 ≤ code) && decide (code ≤ 0x200A) && decide (code ≠ 0x2007)) ||
    decide (code = 0x2028) || decide (code = 0x2029) || decide (code = 0x205F) ||
    decide (code = 0x3000)

/-- `String.isBlank`. -/
def isBlank (text : String) : Bool :=
  text.toList.all isWhitespace

/-- `@NotBlank`: something is left of the trimmed text. -/
def isNotBlank (text : String) : Bool :=
  text.toList.any fun char ↦ decide (0x20 < char.toNat)

/-- `@Size(max = …)` on a text that may be absent. -/
def hasSize (size : ℕ) (text : Option String) : Bool :=
  match text with
  | some text => decide (utf16Length text ≤ size)
  | none => true

/-- `emptyToNull`. -/
def emptyToNull (text : Option String) : Option String :=
  text.filter fun text ↦ !isBlank text

/-! ### Capture requests -/

/-- The status of a capture request. -/
inductive CaptureStatus
  | queued
  | dispatched
  | running
  | cancelRequested
  | indexing
  | completed
  | partialSuccess
  | failed
  | cancelled
  deriving DecidableEq

/-- `CaptureStatus.isTerminal`. -/
def CaptureStatus.isTerminal : CaptureStatus → Bool
  | .completed | .partialSuccess | .failed | .cancelled => true
  | .queued | .dispatched | .running | .cancelRequested | .indexing => false

/-- `CaptureStatus.valueOf`. -/
def CaptureStatus.valueOf : String → Option CaptureStatus
  | "QUEUED" => some .queued
  | "DISPATCHED" => some .dispatched
  | "RUNNING" => some .running
  | "CANCEL_REQUESTED" => some .cancelRequested
  | "INDEXING" => some .indexing
  | "COMPLETED" => some .completed
  | "PARTIAL_SUCCESS" => some .partialSuccess
  | "FAILED" => some .failed
  | "CANCELLED" => some .cancelled
  | _ => none

/-- The text of a status in an event. -/
def progressText : ProgressStatus → String
  | .running => "RUNNING"
  | .indexing => "INDEXING"
  | .completed => "COMPLETED"
  | .failed => "FAILED"

/-- The status of the analytics of a capture request. -/
inductive AnalyticsStatus
  | pending
  | indexing
  | ready
  deriving DecidableEq

/-- A row of `capture_requests`, without its timestamps. -/
structure CaptureRequest where
  id : Uuid
  ownerId : Uuid
  scanId : Uuid
  pageId : Uuid
  status : CaptureStatus := .queued
  targetUrl : String
  viewportWidth : ℤ := 1365
  viewportHeight : ℤ := 768
  timeoutSeconds : ℤ := 30
  maxTotalBytes : ℤ := 52_428_800
  maxResourceBytes : ℤ := 10_485_760
  maxNetworkRequests : ℤ := 500
  maxResourceBodies : ℤ := 100
  idempotencyKeyHash : Option String
  requestFingerprintHash : Option String
  remoteJobVersion : ℤ := 0
  analyticsStatus : AnalyticsStatus := .pending
  analyticsExpectedCount : ℤ := 0
  analyticsPublishedCount : ℤ := 0
  objectCount : ℤ := 0
  totalObjectBytes : ℤ := 0
  terminalCode : Option String := none
  terminalMessage : Option String := none
  deriving DecidableEq

/-- A row of `inbox_messages`, as far as it is read again. -/
structure InboxRecord where
  messageId : Uuid
  payloadSha256 : ByteString
  deriving DecidableEq

/-- The tables, and the next identifier that `UUID.randomUUID` gives. -/
structure CaptureTables where
  requests : List CaptureRequest := []
  inbox : List InboxRecord := []
  outbox : List CaptureCommandEnvelope := []
  nextUuid : Uuid := 1

/-- How an operation fails. -/
inductive CaptureError
  | captureNotFound
  | pageNotCaptureEligible
  | idempotencyKeyReused
  | pageCaptureAlreadyActive
  | validationFailed
  | captureEventRejected
  | messageIdCollision
  | checkViolation
  deriving DecidableEq

/-- A transaction on the tables. -/
abbrev CaptureTx := Transaction CaptureTables CaptureError

/-- The library functions that the Control Plane calls. -/
structure CaptureEnv where
  /-- `objectMapper.writeValueAsBytes` of an event payload. -/
  writeValueAsBytes : CaptureProgressPayload → ByteString
  /-- SHA-256. -/
  sha256 : ByteString → ByteString
  /-- `equalsIgnoreCase`. -/
  equalsIgnoreCase : String → String → Bool

/-! ### Requesting a capture -/

/-- `CrawlerPageContract`, as far as a request looks at it. -/
structure CrawlerPage where
  scanId : Uuid
  outcome : String
  url : String
  finalUrl : Option String

/-- What a user asks for. -/
structure CaptureRequested where
  ownerId : Uuid
  pageId : Uuid
  keyHash : Option String
  fingerprint : Option String
  correlationId : Uuid
  page : CrawlerPage
  /-- Whether the scan of the page is one of the owner's. -/
  ownsScan : Bool

/-- `CaptureService.ACTIVE`. -/
def CaptureStatus.isActive (status : CaptureStatus) : Bool :=
  [.queued, .dispatched, .running, .cancelRequested, .indexing].contains status

/-- `new CaptureRequestEntity`. -/
def newCaptureRequest (id : Uuid) (request : CaptureRequested) : CaptureRequest where
  id := id
  ownerId := request.ownerId
  scanId := request.page.scanId
  pageId := request.pageId
  targetUrl := match request.page.finalUrl with
    | some url => if isBlank url then request.page.url else url
    | none => request.page.url
  idempotencyKeyHash := request.keyHash
  requestFingerprintHash := request.keyHash.bind fun _ ↦ request.fingerprint

/-- The command for a new capture request. -/
def captureCommand (messageId correlationId : Uuid) (capture : CaptureRequest) :
    CaptureCommandEnvelope where
  messageId := messageId
  aggregateType := "CAPTURE"
  aggregateId := capture.id
  aggregateVersion := 0
  messageType := "CAPTURE_REQUESTED"
  contractVersion := 1
  correlationId := correlationId
  payload := {
    captureRequestId := capture.id, ownerId := capture.ownerId, scanId := capture.scanId
    pageId := capture.pageId, targetUrl := capture.targetUrl
    viewportWidth := capture.viewportWidth, viewportHeight := capture.viewportHeight
    timeoutSeconds := capture.timeoutSeconds, maxTotalBytes := capture.maxTotalBytes
    maxResourceBytes := capture.maxResourceBytes
    maxNetworkRequests := capture.maxNetworkRequests
    maxResourceBodies := capture.maxResourceBodies, measurementProfile := "desktop-lab-v1" }

/-- `UUID.randomUUID()`. -/
def newUuid : CaptureTx Uuid :=
  modifyGet fun s ↦ (s.nextUuid, { s with nextUuid := s.nextUuid + 1 })

/-- `CaptureService.persistCapture`: the capture, and whether it was there before. -/
def persistCapture (env : CaptureEnv) (request : CaptureRequested) : CaptureTx (Uuid × Bool) := do
  require (request.ownsScan = true) .captureNotFound
  require (env.equalsIgnoreCase "success" request.page.outcome = true) .pageNotCaptureEligible
  let s ← get
  match request.keyHash.bind fun keyHash ↦ s.requests.find? fun capture ↦
      decide (capture.ownerId = request.ownerId) &&
        decide (capture.idempotencyKeyHash = some keyHash) with
  | some existing =>
    require (existing.requestFingerprintHash = request.fingerprint) .idempotencyKeyReused
    pure (existing.id, true)
  | none =>
    require (s.requests.any (fun capture ↦ decide (capture.ownerId = request.ownerId) &&
      decide (capture.scanId = request.page.scanId) && decide (capture.pageId = request.pageId) &&
      capture.status.isActive) = false) .pageCaptureAlreadyActive
    let id ← newUuid
    let capture := newCaptureRequest id request
    modify fun s ↦ { s with requests := s.requests ++ [capture] }
    let messageId ← newUuid
    modify fun s ↦ { s with
      outbox := s.outbox ++ [captureCommand messageId request.correlationId capture] }
    pure (id, false)

/-! ### Consuming an event -/

/-- The constraints of `CaptureEventEnvelope` and `CaptureProgressPayload`, and the ranges of their
numbers. -/
def isValidEvent (envelope : CaptureEventEnvelope) : Bool :=
  let payload := envelope.payload
  isNotBlank envelope.aggregateType && decide (1 ≤ envelope.aggregateVersion) &&
    isNotBlank envelope.messageType && decide (1 ≤ envelope.contractVersion) &&
    isNotBlank (progressText payload.status) &&
    hasSize 32 (some (progressText payload.status)) &&
    decide (payload.analyticsExpectedCount ≤ 2_147_483_647) &&
    decide (payload.analyticsPublishedCount ≤ 2_147_483_647) &&
    decide (payload.objectCount ≤ 102) && decide (payload.totalObjectBytes ≤ 52_428_800) &&
    hasSize 64 payload.terminalCode && hasSize 500 payload.terminalMessage

/-- `validateEnvelope`. -/
def validateEnvelope (envelope : CaptureEventEnvelope) : Bool :=
  decide (envelope.aggregateType = "CAPTURE") &&
    decide (envelope.messageType = "CAPTURE_PROGRESS") && decide (envelope.contractVersion = 1) &&
    decide (envelope.aggregateId = envelope.payload.captureRequestId)

/-- The part of `CaptureRequestEntity.applyRemote` that changes the entity. -/
def CaptureRequest.project (capture : CaptureRequest) (remoteVersion : ℤ) (next : CaptureStatus)
    (expected published objects objectBytes : ℤ) (code message : Option String) : CaptureRequest :=
  { capture with
    status := next
    terminalCode := if next.isTerminal then emptyToNull code else capture.terminalCode
    terminalMessage := if next.isTerminal then emptyToNull message else capture.terminalMessage
    analyticsExpectedCount := expected
    analyticsPublishedCount := published
    analyticsStatus := if published = expected ∧ next.isTerminal = true then .ready
      else if published < expected then .indexing else .pending
    objectCount := objects
    totalObjectBytes := objectBytes
    remoteJobVersion := remoteVersion }

/-- `CaptureRequestEntity.applyRemote`: the entity if it changed, or an illegal argument. -/
def CaptureRequest.applyRemote (capture : CaptureRequest) (remoteVersion : ℤ) (rawStatus : String)
    (expected published objects objectBytes : ℤ) (code message : Option String) :
    Except CaptureError (Option CaptureRequest) :=
  if remoteVersion ≤ capture.remoteJobVersion ∨ capture.status.isTerminal = true then .ok none
  else match CaptureStatus.valueOf rawStatus.toUpper with
    | none => .error .captureEventRejected
    | some next =>
      if expected < 0 ∨ published < 0 ∨ published > expected ∨ objects < 0 ∨ objectBytes < 0 then
        .error .captureEventRejected
      else .ok (some (capture.project remoteVersion next expected published objects objectBytes
        code message))

/-- `ck_capture_requests_analytics` and `ck_capture_requests_counts`. -/
def CaptureRequest.check (capture : CaptureRequest) : Bool :=
  decide (0 ≤ capture.analyticsExpectedCount) && decide (0 ≤ capture.analyticsPublishedCount) &&
    decide (capture.analyticsPublishedCount ≤ capture.analyticsExpectedCount) &&
    decide (0 ≤ capture.objectCount) &&
    decide (capture.objectCount ≤ capture.maxResourceBodies + 2) &&
    decide (0 ≤ capture.totalObjectBytes) &&
    decide (capture.totalObjectBytes ≤ capture.maxTotalBytes)

/-- What an event led to. -/
inductive ConsumeOutcome
  | ignoredDuplicate
  | ignoredStale
  | applied
  deriving DecidableEq

/-- `CaptureEventController.consume` and `CaptureEventService.consume`. -/
def consume (env : CaptureEnv) (envelope : CaptureEventEnvelope) : CaptureTx ConsumeOutcome := do
  require (isValidEvent envelope = true) .validationFailed
  require (validateEnvelope envelope = true) .captureEventRejected
  let payload := envelope.payload
  let hash := env.sha256 (env.writeValueAsBytes payload)
  let s ← get
  match s.inbox.find? fun record ↦ decide (record.messageId = envelope.messageId) with
  | some record =>
    require (record.payloadSha256 = hash) .messageIdCollision
    pure .ignoredDuplicate
  | none =>
    let capture ← found (s.requests.find? fun capture ↦
      decide (capture.id = payload.captureRequestId) && decide (capture.ownerId = payload.ownerId))
      .captureNotFound
    match capture.applyRemote envelope.aggregateVersion (progressText payload.status)
      payload.analyticsExpectedCount payload.analyticsPublishedCount payload.objectCount
      payload.totalObjectBytes payload.terminalCode payload.terminalMessage with
    | .error error => throw error
    | .ok none =>
      modify fun s ↦ { s with
        inbox := s.inbox ++ [{ messageId := envelope.messageId, payloadSha256 := hash }] }
      pure .ignoredStale
    | .ok (some next) =>
      require (next.check = true) .checkViolation
      modify fun s ↦ { s with
        requests := Table.update (fun other ↦ decide (other.id = capture.id)) (fun _ ↦ next)
          s.requests
        inbox := s.inbox ++ [{ messageId := envelope.messageId, payloadSha256 := hash }] }
      pure .applied

end WebLens.ControlPlane
