import Mathlib.Algebra.Order.Ring.Nat
import WebLens.Capture.Model
import Mathlib.Data.List.Sort
import WebLens.Lib.Table
import WebLens.Lib.Transaction

/-!
# The capture worker's database

The tables of the capture worker and the operations of `CaptureDatabase` as transactions. The clock
of a transaction is PostgreSQL's `now()`, which is one reading for the whole transaction. The rows
that other transactions hold locked, which `skip locked` leaves out, are arguments.
-/

set_option autoImplicit false
set_option relaxedAutoImplicit false

namespace WebLens.Capture

open Lib Lib.Utf8 Lib.Transaction

/-! ### Rows -/

/-- A row of `capture_jobs`. -/
structure CaptureJob where
  id : Uuid
  commandMessageId : Uuid
  commandPayloadSha256 : ByteString
  ownerId : Uuid
  scanId : Uuid
  pageId : Uuid
  correlationId : Uuid
  commandVersion : ℤ
  status : JobStatus := .queued
  commandPayload : CaptureCommandPayload
  attemptCount : ℕ := 0
  availableAt : Instant
  leaseOwner : Option Uuid := none
  leaseGeneration : ℕ := 0
  leaseExpiresAt : Option Instant := none
  eventVersion : ℕ := 0
  analyticsExpectedCount : ℕ := 0
  analyticsPublishedCount : ℕ := 0
  objectCount : ℕ := 0
  totalObjectBytes : ℕ := 0
  terminalCode : Option String := none
  terminalMessage : Option String := none
  acceptedAt : Instant
  deriving DecidableEq

/-- A row of `page_snapshots`, without the columns that only reports read. -/
structure PageSnapshot where
  id : Uuid
  captureJobId : Uuid
  ownerId : Uuid
  networkRequestCount : ℕ
  capturedResourceCount : ℕ
  totalTransferBytes : ℕ
  html : StoredObject
  screenshot : StoredObject
  deriving DecidableEq

/-- A row of `capture_object_references`. -/
structure ObjectReference where
  id : Uuid
  captureJobId : Uuid
  resourceId : Uuid
  ordinal : ℕ
  object : StoredObject
  deleteAfter : Instant
  deriving DecidableEq

/-- A row of `reconstruction_jobs`. -/
structure ReconstructionJob where
  id : Uuid
  ownerId : Uuid
  captureJobId : Uuid
  sourceSnapshotId : Option Uuid := none
  status : ReconstructionStatus := .queued
  discoveredCount : ℕ := 0
  packagedCount : ℕ := 0
  skippedCount : ℕ := 0
  inputBytes : ℕ := 0
  archiveBytes : Option ℕ := none
  completenessCode : Option String := none
  failureCode : Option String := none
  sourceLeaseGeneration : Option ℕ := none
  version : ℕ := 0
  deriving DecidableEq

/-- A row of `reconstruction_artifacts`. -/
structure ReconstructionArtifact where
  id : Uuid
  ownerId : Uuid
  reconstructionJobId : Uuid
  kind : ArtifactKind
  generation : ℕ
  logicalFilename : String
  object : StoredObject
  state : ArtifactState := .staged
  deleteAfter : Instant
  deriving DecidableEq

/-- A row of `analytics_outbox`. -/
structure AnalyticsRow where
  id : Uuid
  captureJobId : Uuid
  ownerId : Uuid
  resultVersion : ℕ
  status : DeliveryStatus := .pending
  payload : Option ByteString
  payloadSha256 : ByteString
  availableAt : Instant
  deliveryAttempts : ℕ := 0
  leaseOwner : Option Uuid := none
  leaseExpiresAt : Option Instant := none
  createdAt : Instant
  deriving DecidableEq

/-- A row of `event_outbox`. -/
structure EventRow where
  messageId : Uuid
  captureJobId : Uuid
  eventVersion : ℕ
  correlationId : Uuid
  payload : CaptureEventEnvelope
  status : DeliveryStatus := .pending
  availableAt : Instant
  deliveryAttempts : ℕ := 0
  leaseOwner : Option Uuid := none
  leaseExpiresAt : Option Instant := none
  createdAt : Instant
  deriving DecidableEq

/-- The tables, and the next identifier that `randomUUID` gives. -/
structure Store where
  captureJobs : List CaptureJob := []
  snapshots : List PageSnapshot := []
  objectReferences : List ObjectReference := []
  reconstructionJobs : List ReconstructionJob := []
  artifacts : List ReconstructionArtifact := []
  analyticsOutbox : List AnalyticsRow := []
  eventOutbox : List EventRow := []
  nextUuid : Uuid := 1
  deriving DecidableEq

/-- How an operation fails. -/
inductive Error
  | messageIdCollision
  | uniqueViolation
  | checkViolation
  | noSuchJob
  | staleCaptureLease
  | staleReconstructionLease
  | analyticsPayloadTooLarge
  | staleAnalyticsLease
  | captureJobNotPersisting
  | staleReconstructionGcClaim
  deriving DecidableEq

/-- A transaction of the capture worker's database. -/
abbrev Tx := Transaction Store Error

/-! ### Statements -/

/-- `randomUUID()`. -/
def newUuid : Tx Uuid :=
  modifyGet fun s ↦ (s.nextUuid, { s with nextUuid := s.nextUuid + 1 })

/-- `update capture_jobs`: how many rows it changed. -/
def updateCaptureJobs (sel : CaptureJob → Bool) (set : CaptureJob → CaptureJob) : Tx ℕ :=
  modifyGet fun s ↦ (s.captureJobs.countP sel,
    { s with captureJobs := Table.update sel set s.captureJobs })

/-- `update reconstruction_jobs`: how many rows it changed. -/
def updateReconstructionJobs (sel : ReconstructionJob → Bool)
    (set : ReconstructionJob → ReconstructionJob) : Tx ℕ :=
  modifyGet fun s ↦ (s.reconstructionJobs.countP sel,
    { s with reconstructionJobs := Table.update sel set s.reconstructionJobs })

/-- `update reconstruction_artifacts`: how many rows it changed. -/
def updateArtifacts (sel : ReconstructionArtifact → Bool)
    (set : ReconstructionArtifact → ReconstructionArtifact) : Tx ℕ :=
  modifyGet fun s ↦ (s.artifacts.countP sel,
    { s with artifacts := Table.update sel set s.artifacts })

/-- `update analytics_outbox`: how many rows it changed. -/
def updateAnalyticsOutbox (sel : AnalyticsRow → Bool) (set : AnalyticsRow → AnalyticsRow) : Tx ℕ :=
  modifyGet fun s ↦ (s.analyticsOutbox.countP sel,
    { s with analyticsOutbox := Table.update sel set s.analyticsOutbox })

/-- `update event_outbox`. -/
def updateEventOutbox (sel : EventRow → Bool) (set : EventRow → EventRow) : Tx Unit :=
  modify fun s ↦ { s with eventOutbox := Table.update sel set s.eventOutbox }

/-- `lease_expires_at<=now()`, which a null does not satisfy. -/
def expiredAt (expiresAt : Option Instant) (now : Instant) : Bool :=
  match expiresAt with
  | some instant => decide (instant ≤ now)
  | none => false

/-! ### Events -/

/-- The counts that an event reports. -/
structure Counts where
  expected : ℕ := 0
  published : ℕ := 0
  objectCount : ℕ := 0
  objectBytes : ℕ := 0
  deriving DecidableEq

/-- The row that `enqueueEvent` inserts. -/
def progressEvent (now : Instant) (messageId jobId ownerId correlationId : Uuid) (version : ℕ)
    (status : ProgressStatus) (counts : Counts) (terminalCode terminalMessage : Option String) :
    EventRow where
  messageId := messageId
  captureJobId := jobId
  eventVersion := version
  correlationId := correlationId
  availableAt := now
  createdAt := now
  payload := {
    messageId := messageId
    aggregateType := "CAPTURE"
    aggregateId := jobId
    aggregateVersion := version
    messageType := "CAPTURE_PROGRESS"
    contractVersion := 1
    correlationId := correlationId
    payload := {
      captureRequestId := jobId
      ownerId := ownerId
      status := status
      analyticsExpectedCount := counts.expected
      analyticsPublishedCount := counts.published
      objectCount := counts.objectCount
      totalObjectBytes := counts.objectBytes
      terminalCode := terminalCode
      terminalMessage := terminalMessage } }

/-- `enqueueEvent`. -/
def enqueueEvent (now : Instant) (jobId ownerId correlationId : Uuid) (status : ProgressStatus)
    (counts : Counts) (terminalCode terminalMessage : Option String) : Tx Unit := do
  let _ ← updateCaptureJobs (fun job ↦ decide (job.id = jobId))
    fun job ↦ { job with eventVersion := job.eventVersion + 1 }
  let s ← get
  let job ← found (s.captureJobs.find? fun job ↦ decide (job.id = jobId)) .noSuchJob
  let messageId ← newUuid
  modify fun s ↦ { s with
    eventOutbox := s.eventOutbox ++ [progressEvent now messageId jobId ownerId correlationId
      job.eventVersion status counts terminalCode terminalMessage] }

/-! ### Accepting commands -/

/-- The capture job of a command. -/
def newCaptureJob (now : Instant) (hash : ByteString) (envelope : CaptureCommandEnvelope) :
    CaptureJob where
  id := envelope.payload.captureRequestId
  commandMessageId := envelope.messageId
  commandPayloadSha256 := hash
  ownerId := envelope.payload.ownerId
  scanId := envelope.payload.scanId
  pageId := envelope.payload.pageId
  correlationId := envelope.correlationId
  commandVersion := envelope.aggregateVersion
  commandPayload := envelope.payload
  availableAt := now
  acceptedAt := now

/-- The reconstruction job of a command. -/
def newReconstructionJob (id : Uuid) (envelope : CaptureCommandEnvelope) : ReconstructionJob where
  id := id
  ownerId := envelope.payload.ownerId
  captureJobId := envelope.payload.captureRequestId

/-- `CaptureDatabase.acceptCommand`: whether the message had been accepted before. -/
def acceptCommand (env : Env) (now : Instant) (envelope : CaptureCommandEnvelope) : Tx Bool := do
  let hash := env.sha256 (env.stringifyCommand envelope)
  let s ← get
  match s.captureJobs.find? fun job ↦ decide (job.commandMessageId = envelope.messageId) with
  | some job =>
    require (job.commandPayloadSha256 = hash) .messageIdCollision
    pure true
  | none =>
    require (∀ job ∈ s.captureJobs, job.id ≠ envelope.payload.captureRequestId) .uniqueViolation
    modify fun s ↦ { s with captureJobs := s.captureJobs ++ [newCaptureJob now hash envelope] }
    let id ← newUuid
    modify fun s ↦ { s with
      reconstructionJobs := s.reconstructionJobs ++ [newReconstructionJob id envelope] }
    pure false

/-! ### Claims -/

/-- `ClaimedJob`. -/
structure ClaimedJob where
  id : Uuid
  ownerId : Uuid
  scanId : Uuid
  pageId : Uuid
  correlationId : Uuid
  payload : CaptureCommandPayload
  leaseOwner : Uuid
  leaseGeneration : ℕ
  attemptCount : ℕ
  deriving DecidableEq

/-- The capture jobs that other transactions hold locked during a claim. -/
structure ClaimLocks where
  expired : List Uuid := []
  candidates : List Uuid := []

/-- Whether the lease of the job expired on its last attempt. -/
def CaptureJob.isExhausted (now : Instant) (job : CaptureJob) : Bool :=
  decide (job.status = .rendering) && expiredAt job.leaseExpiresAt now &&
    decide (job.attemptCount ≥ 3)

/-- Whether the lease of the job expired before its last attempt. -/
def CaptureJob.isExpired (now : Instant) (job : CaptureJob) : Bool :=
  decide (job.status = .rendering) && expiredAt job.leaseExpiresAt now &&
    decide (job.attemptCount < 3)

/-- Whether the job waits for an attempt. -/
def CaptureJob.isAvailable (now : Instant) (job : CaptureJob) : Bool :=
  decide (job.status = .queued) && decide (job.availableAt ≤ now) && decide (job.attemptCount < 3)

/-- The job without a lease. -/
def CaptureJob.release (job : CaptureJob) : CaptureJob :=
  { job with leaseOwner := none, leaseExpiresAt := none }

/-- The job that failed. -/
def CaptureJob.fail (code message : String) (job : CaptureJob) : CaptureJob :=
  { job.release with
    status := .failed, terminalCode := some code, terminalMessage := some message }

/-- The job that waits for another attempt. -/
def CaptureJob.requeue (availableAt : Instant) (terminalCode : Option String) (job : CaptureJob) :
    CaptureJob :=
  { job.release with
    status := .queued, availableAt := availableAt, terminalCode := terminalCode }

/-- The job that a worker claimed. -/
def CaptureJob.claim (now : Instant) (workerId : Uuid) (job : CaptureJob) : CaptureJob :=
  { job with
    status := .rendering
    leaseOwner := some workerId
    leaseGeneration := job.leaseGeneration + 1
    leaseExpiresAt := some (now + 45 * second)
    attemptCount := job.attemptCount + 1 }

/-- The jobs that a claim finds exhausted: the hundred that expired first, of those not locked. -/
def exhaustedJobs (now : Instant) (locked : List Uuid) (s : Store) : List CaptureJob :=
  ((s.captureJobs.filter fun job ↦ job.isExhausted now && decide (job.id ∉ locked)).insertionSort
    fun first second ↦ Table.before [(second.leaseExpiresAt.getD 0 : ℤ), second.id]
      [(first.leaseExpiresAt.getD 0 : ℤ), first.id] = false).take 100

/-- The job that a claim takes: the one that has waited longest. -/
def claimCandidate (now : Instant) (locked : List Uuid) (s : Store) : Option CaptureJob :=
  Table.firstBy (fun job ↦ [(job.availableAt : ℤ), job.acceptedAt, job.id])
    (s.captureJobs.filter fun job ↦ job.isAvailable now && decide (job.id ∉ locked))

/-- Whether the reconstruction is an active one of the capture job. -/
def ReconstructionJob.isActiveOf (jobId : Uuid) (job : ReconstructionJob) : Bool :=
  decide (job.captureJobId = jobId) && job.status.isActive

/-- The reconstruction whose capture failed. -/
def ReconstructionJob.fail (job : ReconstructionJob) : ReconstructionJob :=
  { job with
    status := .failed
    failureCode := some "CAPTURE_FAILED_BEFORE_CLONE"
    version := job.version + 1 }

/-- The reconstruction of a job that a worker claimed. -/
def ReconstructionJob.start (generation : ℕ) (job : ReconstructionJob) : ReconstructionJob :=
  { job with
    status := .running
    sourceLeaseGeneration := some generation
    failureCode := none
    version := job.version + 1 }

/-- The reconstructions and the events of exhausted jobs. -/
def failExhausted (now : Instant) : List CaptureJob → Tx Unit
  | [] => pure ()
  | job :: jobs => do
    let _ ← updateReconstructionJobs (ReconstructionJob.isActiveOf job.id) ReconstructionJob.fail
    enqueueEvent now job.id job.ownerId job.correlationId .failed {}
      (some "CAPTURE_RETRIES_EXHAUSTED") (some "Capture lease expired after bounded retries")
    failExhausted now jobs

/-- The claim of a row as the worker gets it. -/
def CaptureJob.claimed (workerId : Uuid) (job : CaptureJob) : ClaimedJob where
  id := job.id
  ownerId := job.ownerId
  scanId := job.scanId
  pageId := job.pageId
  correlationId := job.correlationId
  payload := job.commandPayload
  leaseOwner := workerId
  leaseGeneration := job.leaseGeneration + 1
  attemptCount := job.attemptCount + 1

/-- `CaptureDatabase.claimJob`. -/
def claimJob (now : Instant) (locks : ClaimLocks) (workerId : Uuid) : Tx (Option ClaimedJob) := do
  let s ← get
  let exhausted := exhaustedJobs now locks.expired s
  let _ ← updateCaptureJobs (fun job ↦ decide (job.id ∈ exhausted.map CaptureJob.id))
    (CaptureJob.fail "CAPTURE_RETRIES_EXHAUSTED" "Capture lease expired after bounded retries")
  failExhausted now exhausted
  let _ ← updateCaptureJobs (CaptureJob.isExpired now)
    fun job ↦ job.requeue now job.terminalCode
  let s ← get
  match claimCandidate now locks.candidates s with
  | none => pure none
  | some job =>
    let _ ← updateCaptureJobs (fun other ↦ decide (other.id = job.id))
      (CaptureJob.claim now workerId)
    enqueueEvent now job.id job.ownerId job.correlationId .running {} none none
    let _ ← updateReconstructionJobs (ReconstructionJob.isActiveOf job.id)
      (ReconstructionJob.start (job.leaseGeneration + 1))
    pure (some (job.claimed workerId))

/-- Whether the row is still the one that the worker claimed. -/
def CaptureJob.isHeldBy (claim : ClaimedJob) (job : CaptureJob) : Bool :=
  decide (job.id = claim.id) && decide (job.status = .rendering) &&
    decide (job.leaseOwner = some claim.leaseOwner) &&
    decide (job.leaseGeneration = claim.leaseGeneration)

/-- `CaptureDatabase.extendLease`: whether the worker still holds the job. -/
def extendLease (now : Instant) (claim : ClaimedJob) : Tx Bool := do
  let rows ← updateCaptureJobs (CaptureJob.isHeldBy claim)
    fun job ↦ { job with leaseExpiresAt := some (now + 45 * second) }
  pure (decide (rows = 1))

/-! ### Results -/

/-- `ck_reconstruction_artifact_content_type` and `ck_reconstruction_artifact_integrity`. -/
def ReconstructionArtifact.check (artifact : ReconstructionArtifact) : Bool :=
  decide (artifact.object.contentType = match artifact.kind with
    | .staticArchive => "application/zip"
    | .manifest => "application/json") &&
  decide (1 ≤ artifact.generation) && decide (1 ≤ artifact.object.bytes) &&
  decide (artifact.object.bytes ≤ 67_108_864)

/-- Whether two artifacts cannot be stored together. -/
def ReconstructionArtifact.collides (artifact other : ReconstructionArtifact) : Bool :=
  decide (other.object.key = artifact.object.key) ||
    (decide (other.reconstructionJobId = artifact.reconstructionJobId) &&
      decide (other.kind = artifact.kind) && decide (other.generation = artifact.generation))

/-- `insertStagedReconstructionArtifact`. -/
def insertStagedReconstructionArtifact (now : Instant) (reconstructionId ownerId : Uuid)
    (generation : ℕ) (kind : ArtifactKind) (logicalFilename : String) (object : StoredObject) :
    Tx Unit := do
  let id ← newUuid
  let artifact : ReconstructionArtifact := {
    id := id, ownerId := ownerId, reconstructionJobId := reconstructionId, kind := kind
    generation := generation, logicalFilename := logicalFilename, object := object
    deleteAfter := now + hour }
  require (artifact.check = true) .checkViolation
  let s ← get
  require (s.artifacts.all (fun other ↦ !artifact.collides other) = true) .uniqueViolation
  modify fun s ↦ { s with artifacts := s.artifacts ++ [artifact] }

/-- Whether the reconstruction runs for the worker's claim. -/
def ReconstructionJob.runsFor (claim : ClaimedJob) (job : ReconstructionJob) : Bool :=
  decide (job.captureJobId = claim.id) && decide (job.ownerId = claim.ownerId) &&
    decide (job.status = .running) &&
    decide (job.sourceLeaseGeneration = some claim.leaseGeneration)

/-- `CaptureDatabase.stageReconstructionArtifacts`. -/
def stageReconstructionArtifacts (now : Instant) (claim : ClaimedJob)
    (objects : ReconstructionObjects) : Tx Unit := do
  let s ← get
  require (s.captureJobs.any (CaptureJob.isHeldBy claim) = true) .staleCaptureLease
  let reconstruction ← found (s.reconstructionJobs.find? (ReconstructionJob.runsFor claim))
    .staleReconstructionLease
  insertStagedReconstructionArtifact now reconstruction.id claim.ownerId claim.leaseGeneration
    .staticArchive "weblens-static-clone.zip" objects.archive
  insertStagedReconstructionArtifact now reconstruction.id claim.ownerId claim.leaseGeneration
    .manifest "manifest.json" objects.manifest

/-- `ck_page_snapshot_counts`. -/
def PageSnapshot.check (snapshot : PageSnapshot) : Bool :=
  decide (snapshot.networkRequestCount ≤ 500) && decide (snapshot.capturedResourceCount ≤ 100) &&
    decide (snapshot.totalTransferBytes ≤ 52_428_800)

/-- `ck_capture_object_size`. -/
def ObjectReference.check (reference : ObjectReference) : Bool :=
  decide (1 ≤ reference.object.bytes) && decide (reference.object.bytes ≤ 10_485_760)

/-- `ck_reconstruction_counts` and the columns that `ck_reconstruction_lifecycle` asks of a
reconstruction that ended. -/
def ReconstructionJob.check (job : ReconstructionJob) : Bool :=
  decide (job.packagedCount ≤ 100) &&
    decide (job.packagedCount + job.skippedCount ≤ job.discoveredCount) &&
    decide (job.inputBytes ≤ 52_428_800) &&
    (match job.archiveBytes with
      | some bytes => decide (1 ≤ bytes) && decide (bytes ≤ 67_108_864)
      | none => true) &&
    (if job.status.isPublished then
      job.sourceSnapshotId.isSome && job.archiveBytes.isSome && job.completenessCode.isSome &&
        job.failureCode.isNone
    else job.failureCode.isSome)

/-- A resource body with the object that stores it. -/
structure ResourceObject where
  resource : ResourceBody
  object : StoredObject
  deriving DecidableEq

/-- What the analytics payload says about a stored resource. -/
def ResourceObject.summary (env : Env) (item : ResourceObject) : ResourceSummary where
  resourceId := item.resource.resourceId
  sequence := item.resource.sequence
  url := item.resource.url
  resourceType := item.resource.resourceType
  mimeType := item.resource.mimeType
  bodyBytes := item.resource.body.length
  bodySha256 := env.sha256 item.resource.body
  wasTruncated := item.resource.wasTruncated

/-- What a worker hands over for a claim. -/
structure Staging where
  result : CaptureResult
  html : StoredObject
  screenshot : StoredObject
  resources : List ResourceObject
  reconstruction : Option ReconstructionObjects
  deriving DecidableEq

/-- `objectCount`. -/
def Staging.objectCount (staging : Staging) : ℕ :=
  2 + staging.resources.length + if staging.reconstruction.isSome then 2 else 0

/-- `objectBytes`. -/
def Staging.objectBytes (staging : Staging) : ℕ :=
  staging.html.bytes + staging.screenshot.bytes +
    (staging.resources.map fun item ↦ item.object.bytes).sum +
    (match staging.reconstruction with
      | some objects => objects.archive.bytes
      | none => 0) +
    (match staging.reconstruction with
      | some objects => objects.manifest.bytes
      | none => 0)

/-- `expected`. -/
def Staging.expected (staging : Staging) : ℕ :=
  1 + staging.result.network.length + staging.resources.length

/-- The payload of the analytics batch of a result. -/
def analyticsPayload (env : Env) (batchId : Uuid) (claim : ClaimedJob) (staging : Staging) :
    AnalyticsPayload where
  schemaVersion := 1
  batchId := batchId
  ownerId := claim.ownerId
  captureRequestId := claim.id
  scanId := claim.scanId
  pageId := claim.pageId
  recordVersion := claim.leaseGeneration
  result := staging.result
  resourceBodies := staging.resources.map (ResourceObject.summary env)

/-- The loop that inserts the references to the stored resources. -/
def insertObjectReferences (now : Instant) (jobId : Uuid) : ℕ → List ResourceObject → Tx Unit
  | _, [] => pure ()
  | ordinal, item :: items => do
    let id ← newUuid
    let object := if item.object.contentType = "" then
      { item.object with contentType := "application/octet-stream" } else item.object
    let reference : ObjectReference := {
      id := id, captureJobId := jobId, resourceId := item.resource.resourceId, ordinal := ordinal
      object := object, deleteAfter := now + 7 * day }
    require (reference.check = true) .checkViolation
    let s ← get
    require (s.objectReferences.all (fun other ↦ !(decide (other.object.key = object.key) ||
      decide (other.captureJobId = jobId) && decide (other.ordinal = ordinal))) = true)
      .uniqueViolation
    modify fun s ↦ { s with objectReferences := s.objectReferences ++ [reference] }
    insertObjectReferences now jobId (ordinal + 1) items

/-- Whether the artifact is staged for the generation. -/
def ReconstructionArtifact.isStagedFor (reconstructionId ownerId : Uuid) (generation : ℕ)
    (artifact : ReconstructionArtifact) : Bool :=
  decide (artifact.reconstructionJobId = reconstructionId) && decide (artifact.ownerId = ownerId) &&
    decide (artifact.generation = generation) && decide (artifact.state = .staged)

/-- Whether the artifact is one of the objects and will not be deleted soon. -/
def ReconstructionArtifact.isOneOf (now : Instant) (objects : ReconstructionObjects)
    (artifact : ReconstructionArtifact) : Bool :=
  decide (artifact.deleteAfter > now + 5 * minute) &&
    (decide (artifact.kind = .staticArchive) && decide (artifact.object = objects.archive) ||
      decide (artifact.kind = .manifest) && decide (artifact.object = objects.manifest))

/-- The artifact that was published. -/
def ReconstructionArtifact.publish (now : Instant) (artifact : ReconstructionArtifact) :
    ReconstructionArtifact :=
  { artifact with state := .published, deleteAfter := now + 7 * day }

/-- The part of `stageResult` that publishes the staged artifacts: whether it did. -/
def publishArtifacts (now : Instant) (claim : ClaimedJob) (reconstructionId : Uuid)
    (staging : Staging) : Tx Bool := do
  match staging.reconstruction with
  | none => pure false
  | some objects =>
    let build := staging.result.reconstruction
    if build.status ≠ .failed ∧ build.archiveBytes.getD 0 ≠ 0 then
      let s ← get
      if (s.artifacts.countP fun artifact ↦
          artifact.isStagedFor reconstructionId claim.ownerId claim.leaseGeneration &&
            artifact.isOneOf now objects) = 2 then
        let rows ← updateArtifacts
          (ReconstructionArtifact.isStagedFor reconstructionId claim.ownerId claim.leaseGeneration)
          (ReconstructionArtifact.publish now)
        pure (decide (rows = 2))
      else pure false
    else pure false

/-- `terminalStatus`. -/
def terminalStatus (artifactsPublished : Bool) (build : ReconstructionBuild) :
    ReconstructionStatus :=
  if artifactsPublished && decide (build.status ≠ .failed) then
    build.status.toReconstructionStatus
  else .failed

/-- The reconstruction after its build. -/
def ReconstructionJob.finish (snapshotId : Uuid) (artifactsPublished : Bool) (staging : Staging)
    (job : ReconstructionJob) : ReconstructionJob :=
  let build := staging.result.reconstruction
  let status := terminalStatus artifactsPublished build
  { job with
    sourceSnapshotId := some snapshotId
    status := status
    discoveredCount := build.discoveredCount
    packagedCount := build.packagedCount
    skippedCount := build.skippedCount
    inputBytes := build.inputBytes
    archiveBytes := if status = .failed then none
      else staging.reconstruction.map fun objects ↦ objects.archive.bytes
    completenessCode := if status = .failed then none else build.completenessCode
    failureCode := if status = .failed then
        some (build.failureCode.getD (if staging.reconstruction.isSome
          then "CLONE_ARTIFACT_STAGE_INCOMPLETE" else "CLONE_ARTIFACT_UPLOAD_FAILED"))
      else none
    version := job.version + 1 }

/-- The part of `stageResult` that ends the reconstruction. -/
def finishReconstruction (now : Instant) (claim : ClaimedJob) (snapshotId : Uuid)
    (staging : Staging) : Tx Unit := do
  let s ← get
  match s.reconstructionJobs.find? (ReconstructionJob.runsFor claim) with
  | none => pure ()
  | some reconstruction =>
    let artifactsPublished ← publishArtifacts now claim reconstruction.id staging
    require ((reconstruction.finish snapshotId artifactsPublished staging).check = true)
      .checkViolation
    let rows ← updateReconstructionJobs (fun job ↦ decide (job.id = reconstruction.id) &&
        decide (job.status = .running) &&
        decide (job.sourceLeaseGeneration = some claim.leaseGeneration))
      (ReconstructionJob.finish snapshotId artifactsPublished staging)
    require (rows ≠ 0) .staleReconstructionLease

/-- The capture job after its result was staged. -/
def CaptureJob.stage (staging : Staging) (job : CaptureJob) : CaptureJob :=
  { job.release with
    status := .persisting
    analyticsExpectedCount := staging.expected
    analyticsPublishedCount := 0
    objectCount := staging.objectCount
    totalObjectBytes := staging.objectBytes }

/-- `CaptureDatabase.stageResult`. -/
def stageResult (env : Env) (now : Instant) (claim : ClaimedJob) (staging : Staging) :
    Tx Unit := do
  let batchId ← newUuid
  let encoded := env.stringifyAnalytics (analyticsPayload env batchId claim staging)
  require (encoded.length ≤ 8_388_608) .analyticsPayloadTooLarge
  let s ← get
  require (s.captureJobs.any (CaptureJob.isHeldBy claim) = true) .staleCaptureLease
  let snapshotId ← newUuid
  let snapshot : PageSnapshot := {
    id := snapshotId, captureJobId := claim.id, ownerId := claim.ownerId
    networkRequestCount := staging.result.network.length
    capturedResourceCount := staging.resources.length
    totalTransferBytes := staging.result.totalTransferBytes
    html := staging.html, screenshot := staging.screenshot }
  require (snapshot.check = true) .checkViolation
  require (∀ other ∈ s.snapshots, other.captureJobId ≠ claim.id) .uniqueViolation
  modify fun s ↦ { s with snapshots := s.snapshots ++ [snapshot] }
  insertObjectReferences now claim.id 0 staging.resources
  finishReconstruction now claim snapshotId staging
  let s ← get
  require (∀ row ∈ s.analyticsOutbox, row.captureJobId ≠ claim.id) .uniqueViolation
  modify fun s ↦ { s with analyticsOutbox := s.analyticsOutbox ++ [{
    id := batchId, captureJobId := claim.id, ownerId := claim.ownerId
    resultVersion := claim.leaseGeneration, payload := some encoded
    payloadSha256 := env.sha256 encoded, availableAt := now, createdAt := now }] }
  let _ ← updateCaptureJobs (fun job ↦ decide (job.id = claim.id)) (CaptureJob.stage staging)
  enqueueEvent now claim.id claim.ownerId claim.correlationId .indexing
    { expected := staging.expected, published := 0, objectCount := staging.objectCount
      objectBytes := staging.objectBytes } none none

/-- `CaptureDatabase.failJob`. -/
def failJob (now : Instant) (claim : ClaimedJob) (errorCode : String) : Tx Unit := do
  let s ← get
  match s.captureJobs.find? (CaptureJob.isHeldBy claim) with
  | none => pure ()
  | some job =>
    if job.attemptCount < 3 then
      let _ ← updateCaptureJobs (fun job ↦ decide (job.id = claim.id))
        (CaptureJob.requeue (now + min 30 (2 ^ job.attemptCount) * second) (some errorCode))
      pure ()
    else do
      let _ ← updateCaptureJobs (fun job ↦ decide (job.id = claim.id))
        (CaptureJob.fail errorCode "Capture failed after bounded retries")
      let _ ← updateReconstructionJobs (ReconstructionJob.isActiveOf claim.id)
        ReconstructionJob.fail
      enqueueEvent now claim.id claim.ownerId claim.correlationId .failed {} (some errorCode)
        (some "Capture failed after bounded retries")

/-! ### Analytics -/

/-- `ClaimedOutbox`, as far as the database looks at it again. -/
structure ClaimedOutbox where
  id : Uuid
  jobId : Uuid
  ownerId : Uuid
  payload : Option ByteString
  payloadSha256 : ByteString
  leaseOwner : Uuid
  deriving DecidableEq

/-- Whether a row of an outbox can be claimed. -/
def isDue (now : Instant) (status : DeliveryStatus) (availableAt : Instant)
    (leaseExpiresAt : Option Instant) : Bool :=
  (decide (status = .pending) || decide (status = .dead)) && decide (availableAt ≤ now) ||
    decide (status = .claimed) && expiredAt leaseExpiresAt now

/-- The instant at which a row is due again after a failed delivery. -/
def retryAt (env : Env) (now : Instant) (id : Uuid) (deliveryAttempts : ℕ) : Instant :=
  now + ((if deliveryAttempts ≥ 20 then 300 else min 60 (2 ^ min deliveryAttempts 6)) +
    env.jitter id) * second

/-- The status of a row after a failed delivery. -/
def retryStatus (deliveryAttempts : ℕ) : DeliveryStatus :=
  if deliveryAttempts ≥ 20 then .dead else .pending

/-- `CaptureDatabase.claimAnalytics`. -/
def claimAnalytics (now : Instant) (locked : List Uuid) (workerId : Uuid) :
    Tx (Option ClaimedOutbox) := do
  let s ← get
  match Table.firstBy (fun row ↦ [(row.availableAt : ℤ), row.createdAt, row.id])
    (s.analyticsOutbox.filter fun row ↦
      isDue now row.status row.availableAt row.leaseExpiresAt && decide (row.id ∉ locked)) with
  | none => pure none
  | some row =>
    let _ ← updateAnalyticsOutbox (fun other ↦ decide (other.id = row.id)) fun other ↦
      { other with
        status := .claimed
        leaseOwner := some workerId
        leaseExpiresAt := some (now + 30 * second)
        deliveryAttempts := other.deliveryAttempts + 1 }
    pure (some {
      id := row.id, jobId := row.captureJobId, ownerId := row.ownerId, payload := row.payload
      payloadSha256 := row.payloadSha256, leaseOwner := workerId })

/-- Whether the row is claimed by the worker. -/
def AnalyticsRow.isClaimedBy (outbox : ClaimedOutbox) (row : AnalyticsRow) : Bool :=
  decide (row.id = outbox.id) && decide (row.status = .claimed) &&
    decide (row.leaseOwner = some outbox.leaseOwner)

/-- `CaptureDatabase.completeAnalytics`. -/
def completeAnalytics (now : Instant) (outbox : ClaimedOutbox) : Tx Unit := do
  let rows ← updateAnalyticsOutbox (AnalyticsRow.isClaimedBy outbox) fun row ↦
    { row with status := .delivered, payload := none, leaseOwner := none, leaseExpiresAt := none }
  require (rows ≠ 0) .staleAnalyticsLease
  let s ← get
  let job ← found (s.captureJobs.find? fun job ↦ decide (job.id = outbox.jobId) &&
    decide (job.status = .persisting)) .captureJobNotPersisting
  let _ ← updateCaptureJobs
    (fun job ↦ decide (job.id = outbox.jobId) && decide (job.status = .persisting))
    fun job ↦
      { job with status := .completed, analyticsPublishedCount := job.analyticsExpectedCount }
  enqueueEvent now outbox.jobId job.ownerId job.correlationId .completed
    { expected := job.analyticsExpectedCount, published := job.analyticsExpectedCount
      objectCount := job.objectCount, objectBytes := job.totalObjectBytes } none none

/-- `CaptureDatabase.retryAnalytics`. -/
def retryAnalytics (env : Env) (now : Instant) (outbox : ClaimedOutbox) : Tx Unit := do
  let _ ← updateAnalyticsOutbox (AnalyticsRow.isClaimedBy outbox) fun row ↦
    { row with
      status := retryStatus row.deliveryAttempts
      availableAt := retryAt env now row.id row.deliveryAttempts
      leaseOwner := none
      leaseExpiresAt := none }
  pure ()

/-! ### Events to the Control Plane -/

/-- `ClaimedEvent`. -/
structure ClaimedEvent where
  messageId : Uuid
  payload : CaptureEventEnvelope
  leaseOwner : Uuid
  deriving DecidableEq

/-- `CaptureDatabase.claimEvent`. -/
def claimEvent (now : Instant) (locked : List Uuid) (workerId : Uuid) :
    Tx (Option ClaimedEvent) := do
  let s ← get
  match Table.firstBy (fun row ↦ [(row.availableAt : ℤ), row.createdAt, row.messageId])
    (s.eventOutbox.filter fun row ↦
      isDue now row.status row.availableAt row.leaseExpiresAt && decide (row.messageId ∉ locked))
    with
  | none => pure none
  | some row =>
    updateEventOutbox (fun other ↦ decide (other.messageId = row.messageId)) fun other ↦
      { other with
        status := .claimed
        leaseOwner := some workerId
        leaseExpiresAt := some (now + 30 * second)
        deliveryAttempts := other.deliveryAttempts + 1 }
    pure (some { messageId := row.messageId, payload := row.payload, leaseOwner := workerId })

/-- Whether the row is claimed by the publisher. -/
def EventRow.isClaimedBy (event : ClaimedEvent) (row : EventRow) : Bool :=
  decide (row.messageId = event.messageId) && decide (row.status = .claimed) &&
    decide (row.leaseOwner = some event.leaseOwner)

/-- `CaptureDatabase.completeEvent`. -/
def completeEvent (event : ClaimedEvent) : Tx Unit :=
  updateEventOutbox (EventRow.isClaimedBy event) fun row ↦
    { row with status := .delivered, leaseOwner := none, leaseExpiresAt := none }

/-- `CaptureDatabase.retryEvent`. -/
def retryEvent (env : Env) (now : Instant) (event : ClaimedEvent) : Tx Unit :=
  updateEventOutbox (EventRow.isClaimedBy event) fun row ↦
    { row with
      status := retryStatus row.deliveryAttempts
      availableAt := retryAt env now row.messageId row.deliveryAttempts
      leaseOwner := none
      leaseExpiresAt := none }

/-! ### Garbage collection -/

/-- `ClaimedReconstructionArtifact`. -/
structure ClaimedReconstructionArtifact where
  id : Uuid
  reconstructionId : Uuid
  kind : ArtifactKind
  object : StoredObject
  deriving DecidableEq

/-- `CaptureDatabase.claimReconstructionArtifactForDeletion`. -/
def claimReconstructionArtifactForDeletion (now : Instant) (locked : List Uuid) :
    Tx (Option ClaimedReconstructionArtifact) := do
  let s ← get
  match Table.firstBy (fun artifact ↦ [(artifact.deleteAfter : ℤ), artifact.id])
    (s.artifacts.filter fun artifact ↦ decide (artifact.state ≠ .deleted) &&
      decide (artifact.deleteAfter ≤ now) && decide (artifact.id ∉ locked)) with
  | none => pure none
  | some artifact =>
    let _ ← updateArtifacts (fun other ↦ decide (other.id = artifact.id)) fun other ↦
      { other with
        state := if other.state = .staged then .staged else .deletePending
        deleteAfter := now + 30 * second }
    pure (some {
      id := artifact.id, reconstructionId := artifact.reconstructionJobId, kind := artifact.kind
      object := artifact.object })

/-- Whether the artifact is the claimed one and may still be deleted. -/
def ReconstructionArtifact.isClaimedAs (claimed : ClaimedReconstructionArtifact)
    (artifact : ReconstructionArtifact) : Bool :=
  decide (artifact.id = claimed.id) &&
    decide (artifact.reconstructionJobId = claimed.reconstructionId) &&
    (decide (artifact.state = .staged) || decide (artifact.state = .deletePending))

/-- The reconstruction whose archive was deleted. -/
def ReconstructionJob.expire (job : ReconstructionJob) : ReconstructionJob :=
  { job with status := .expired, version := job.version + 1 }

/-- `CaptureDatabase.completeReconstructionArtifactDeletion`. -/
def completeReconstructionArtifactDeletion (claimed : ClaimedReconstructionArtifact) :
    Tx Unit := do
  let rows ← updateArtifacts (ReconstructionArtifact.isClaimedAs claimed)
    fun artifact ↦ { artifact with state := .deleted }
  require (rows ≠ 0) .staleReconstructionGcClaim
  if claimed.kind = .staticArchive then
    let _ ← updateReconstructionJobs
      (fun job ↦ decide (job.id = claimed.reconstructionId) && job.status.isPublished)
      ReconstructionJob.expire
    pure ()
  else pure ()

/-- `CaptureDatabase.retryReconstructionArtifactDeletion`. -/
def retryReconstructionArtifactDeletion (now : Instant)
    (claimed : ClaimedReconstructionArtifact) : Tx Unit := do
  let _ ← updateArtifacts (ReconstructionArtifact.isClaimedAs claimed)
    fun artifact ↦ { artifact with deleteAfter := now + minute }
  pure ()

end WebLens.Capture
