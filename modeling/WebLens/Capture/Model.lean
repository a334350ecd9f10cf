import WebLens.Lib.Utf8

/-!
# The capture worker's data model

The values that the capture worker's database, its loops and its messages exchange: commands,
results of a browser run, stored objects, and the progress events of the Control Plane contract.

Identifiers are numbers. Instants and durations are numbers of microseconds, as PostgreSQL keeps
them. Texts that are written and never taken apart again are kept as texts: the metadata, the
network records and the performance summary of a result by their JSON texts.
-/

set_option autoImplicit false
set_option relaxedAutoImplicit false

namespace WebLens.Capture

open Lib.Utf8

/-- A UUID, read as a 128-bit number. -/
abbrev Uuid := ℕ

/-- A point in time, in microseconds. -/
abbrev Instant := ℕ

/-- A length of time, in microseconds. -/
abbrev Duration := ℕ

/-- `interval '1 second'`. -/
def second : Duration := 1_000_000

/-- `interval '1 minute'`. -/
def minute : Duration := 60 * second

/-- `interval '1 hour'`. -/
def hour : Duration := 60 * minute

/-- `interval '1 day'`. -/
def day : Duration := 24 * hour

/-! ### Statuses -/

/-- The status of a capture job. -/
inductive JobStatus
  | queued
  | rendering
  | persisting
  | completed
  | failed
  deriving DecidableEq

/-- Whether a capture job is over. -/
def JobStatus.isTerminal : JobStatus → Bool
  | .completed | .failed => true
  | .queued | .rendering | .persisting => false

/-- The status of a reconstruction job; `partialArchive` is `PARTIAL`. -/
inductive ReconstructionStatus
  | queued
  | running
  | published
  | partialArchive
  | failed
  | expired
  deriving DecidableEq

/-- `status in ('PUBLISHED','PARTIAL')`. -/
def ReconstructionStatus.isPublished : ReconstructionStatus → Bool
  | .published | .partialArchive => true
  | .queued | .running | .failed | .expired => false

/-- `status in ('QUEUED','RUNNING')`. -/
def ReconstructionStatus.isActive : ReconstructionStatus → Bool
  | .queued | .running => true
  | .published | .partialArchive | .failed | .expired => false

/-- The outcome of a static clone build. -/
inductive BuildStatus
  | published
  | partialArchive
  | failed
  deriving DecidableEq

/-- The status of a reconstruction that ends as its build did. -/
def BuildStatus.toReconstructionStatus : BuildStatus → ReconstructionStatus
  | .published => .published
  | .partialArchive => .partialArchive
  | .failed => .failed

/-- The kind of a reconstruction artifact. -/
inductive ArtifactKind
  | staticArchive
  | manifest
  deriving DecidableEq

/-- The state of a reconstruction artifact. -/
inductive ArtifactState
  | staged
  | published
  | deletePending
  | deleted
  deriving DecidableEq

/-- The status of a row of an outbox. -/
inductive DeliveryStatus
  | pending
  | claimed
  | delivered
  | dead
  deriving DecidableEq

/-- The status of a capture as its events report it. -/
inductive ProgressStatus
  | running
  | indexing
  | completed
  | failed
  deriving DecidableEq

/-! ### Commands -/

/-- `CaptureCommandPayload`, as far as the worker looks at it. -/
structure CaptureCommandPayload where
  captureRequestId : Uuid
  ownerId : Uuid
  scanId : Uuid
  pageId : Uuid
  targetUrl : String
  viewportWidth : ℤ
  viewportHeight : ℤ
  timeoutSeconds : ℤ
  maxTotalBytes : ℤ
  maxResourceBytes : ℤ
  maxNetworkRequests : ℤ
  maxResourceBodies : ℤ
  measurementProfile : String
  deriving DecidableEq

/-- `CaptureCommandEnvelope`. -/
structure CaptureCommandEnvelope where
  messageId : Uuid
  aggregateType : String
  aggregateId : Uuid
  aggregateVersion : ℤ
  messageType : String
  contractVersion : ℤ
  correlationId : Uuid
  payload : CaptureCommandPayload
  deriving DecidableEq

/-- `parseEnvelope`: whether the endpoint accepts the command. -/
def CaptureCommandEnvelope.isValid (envelope : CaptureCommandEnvelope) : Bool :=
  let payload := envelope.payload
  !(decide (envelope.aggregateType ≠ "CAPTURE") ||
    decide (envelope.messageType ≠ "CAPTURE_REQUESTED") ||
    decide (envelope.contractVersion ≠ 1) ||
    decide (envelope.aggregateId ≠ payload.captureRequestId) ||
    decide (payload.measurementProfile ≠ "desktop-lab-v1") ||
    decide (payload.viewportWidth ≠ 1365) || decide (payload.viewportHeight ≠ 768) ||
    decide (payload.timeoutSeconds ≠ 30) ||
    decide (payload.maxNetworkRequests < 1) || decide (payload.maxNetworkRequests > 500) ||
    decide (payload.maxResourceBodies < 0) || decide (payload.maxResourceBodies > 100) ||
    decide (payload.maxTotalBytes < 1) || decide (payload.maxTotalBytes > 52_428_800) ||
    decide (payload.maxResourceBytes < 1) || decide (payload.maxResourceBytes > 10_485_760))

/-! ### Results -/

/-- `StoredObject`. -/
structure StoredObject where
  bucket : String
  key : String
  bytes : ℕ
  sha256 : ByteString
  contentType : String
  deriving DecidableEq

/-- `ReconstructionObjects`. -/
structure ReconstructionObjects where
  archive : StoredObject
  manifest : StoredObject
  deriving DecidableEq

/-- `ResourceBody`. -/
structure ResourceBody where
  resourceId : Uuid
  sequence : ℕ
  url : String
  resourceType : String
  mimeType : String
  body : ByteString
  wasTruncated : Bool
  deriving DecidableEq

/-- `ReconstructionBuild`, as far as it is stored. -/
structure ReconstructionBuild where
  status : BuildStatus
  discoveredCount : ℕ
  packagedCount : ℕ
  skippedCount : ℕ
  inputBytes : ℕ
  archiveBytes : Option ℕ
  completenessCode : Option String
  failureCode : Option String
  deriving DecidableEq

/-- `CaptureResult` without its bodies; the metadata, the differences, the performance summary and
the network records by their JSON texts. -/
structure CaptureResult where
  finalUrl : String
  rendered : ByteString
  diff : ByteString
  performance : ByteString
  network : List ByteString
  browserVersion : String
  observedAt : Instant
  totalTransferBytes : ℕ
  reconstruction : ReconstructionBuild
  deriving DecidableEq

/-- What the analytics payload says about a stored resource body. -/
structure ResourceSummary where
  resourceId : Uuid
  sequence : ℕ
  url : String
  resourceType : String
  mimeType : String
  bodyBytes : ℕ
  bodySha256 : ByteString
  wasTruncated : Bool
  deriving DecidableEq

/-- The payload of an analytics batch. -/
structure AnalyticsPayload where
  schemaVersion : ℕ
  batchId : Uuid
  ownerId : Uuid
  captureRequestId : Uuid
  scanId : Uuid
  pageId : Uuid
  recordVersion : ℕ
  result : CaptureResult
  resourceBodies : List ResourceSummary
  deriving DecidableEq

/-! ### Events -/

/-- `CaptureProgressPayload`. -/
structure CaptureProgressPayload where
  captureRequestId : Uuid
  ownerId : Uuid
  status : ProgressStatus
  analyticsExpectedCount : ℕ
  analyticsPublishedCount : ℕ
  objectCount : ℕ
  totalObjectBytes : ℕ
  terminalCode : Option String
  terminalMessage : Option String
  deriving DecidableEq

/-- The envelope of a progress event. -/
structure CaptureEventEnvelope where
  messageId : Uuid
  aggregateType : String
  aggregateId : Uuid
  aggregateVersion : ℕ
  messageType : String
  contractVersion : ℕ
  correlationId : Uuid
  payload : CaptureProgressPayload
  deriving DecidableEq

/-! ### The environment -/

/-- The library functions that the worker calls, and what PostgreSQL computes for it. -/
structure Env where
  /-- `JSON.stringify` of a command. -/
  stringifyCommand : CaptureCommandEnvelope → ByteString
  /-- `JSON.stringify` of an analytics payload. -/
  stringifyAnalytics : AnalyticsPayload → ByteString
  /-- SHA-256. -/
  sha256 : ByteString → ByteString
  /-- `toUpperCase`, character by character. -/
  toUpperCase : Char → List Char
  /-- `mod(abs(hashtext(id::text)::bigint),5)`. -/
  jitter : Uuid → ℕ

/-- `boundedErrorCode`: a code of at most 64 capitals, digits and underscores. -/
def boundedErrorCode (env : Env) (raw : String) : String :=
  let code := ((raw.toList.flatMap env.toUpperCase).map fun c ↦
    if ('A' ≤ c && c ≤ 'Z') || ('0' ≤ c && c ≤ '9') || c = '_' then c else '_').take 64
  if code.isEmpty then "CAPTURE_FAILED" else String.ofList code

end WebLens.Capture
