import WebLens.ControlPlane.Outbox
import WebLens.ControlPlane.SiteClones
import WebLens.Lib.PartialIndex

/-!
# The workflow of the Control Plane

The tables of websites, scans and site clone requests with their outbox and inbox, and the
transactions of `WebsiteService`, `ScanService`, `SiteCloneService` and the event services on them.
A transaction locks the rows that it reads and is one atomic step. Whether the user is active, what
an URL parses to and what a hash is are given from outside.
-/

set_option autoImplicit false
set_option relaxedAutoImplicit false

namespace WebLens.ControlPlane

open Lib Lib.Utf8 Lib.Transaction
open Capture (Uuid)
open Crawler (Instant ExecutionStatus)

/-! ### Tables -/

/-- `WebsiteTarget`. -/
structure WebsiteTarget where
  canonicalUrl : String
  hostname : String

inductive WebsiteStatus
  | active
  | archived
  deriving DecidableEq

/-- A row of `websites`, without its timestamps. -/
structure Website where
  id : Uuid
  ownerId : Uuid
  displayName : String
  canonicalUrl : String
  hostname : String
  status : WebsiteStatus := .active
  version : ℤ := 0
  deriving DecidableEq

/-- A row of `site_clone_requests` with its version. -/
structure SiteCloneRow extends SiteCloneRequest where
  version : ℤ := 0
  deriving DecidableEq

/-- The tables, and the next identifier that `UUID.randomUUID` gives. -/
structure WorkflowTables where
  websites : List Website := []
  scans : List Scan := []
  siteClones : List SiteCloneRow := []
  inbox : List InboxRecord := []
  outbox : List OutboxRow := []
  nextUuid : Uuid := 1

/-- How a transaction fails. -/
inductive WorkflowError
  | invalidUser
  | invalidWebsiteUrl
  | websiteNotFound
  | websiteAlreadyRegistered
  | websiteHasActiveScan
  | unsafeScanTarget
  | invalidIdempotencyKey
  | idempotencyKeyRequired
  | idempotencyKeyReused
  | websiteScanAlreadyActive
  | activeScanQuotaExceeded
  | scanNotFound
  | scanNotCancellable
  | siteCloneNotFound
  | validationFailed
  | eventRejected
  | siteCloneEventRejected
  | messageIdCollision
  | duplicateMessage
  | constraintViolation
  | internalError
  deriving DecidableEq

/-- A transaction on the tables. -/
abbrev WorkflowTx := Transaction WorkflowTables WorkflowError

/-- What the Control Plane takes from outside this code: `java.net.URI`, hashes, JSON, and its
configuration. -/
structure WorkflowEnv where
  /-- `WebsiteTarget.parse`. -/
  parseTarget : String → Option WebsiteTarget
  /-- `WebsiteTarget.isObviouslyNonPublicHostname`. -/
  isObviouslyNonPublicHostname : String → Bool
  /-- `UUID.toString`. -/
  uuidText : Uuid → String
  /-- The hexadecimal text of SHA-256. -/
  sha256Hex : String → String
  /-- `objectMapper.writeValueAsBytes` of the payload of a scan event. -/
  writeScanPayload : Crawler.ScanProgressPayload → ByteString
  /-- `objectMapper.writeValueAsBytes` of the payload of a site clone event. -/
  writeSiteClonePayload : SiteClone.SiteCloneProgressPayload → ByteString
  /-- SHA-256. -/
  sha256 : ByteString → ByteString
  /-- `ScanLimitProperties`. -/
  limits : ScanConfiguration
  /-- `SiteCloneProperties`. -/
  siteClone : SiteClone.SiteClonePolicy

/-! ### Statements -/

/-- `UUID.randomUUID()`. -/
def drawUuid : WorkflowTx Uuid :=
  modifyGet fun s ↦ (s.nextUuid, { s with nextUuid := s.nextUuid + 1 })

/-- Whether the outbox has a message with the type, identifier, version and event type of another,
or with its message identifier. -/
def Command.conflicts (command : Command) (row : OutboxRow) : Bool :=
  decide (row.messageId = command.messageId) ||
    (decide (row.command.aggregateType = command.aggregateType) &&
      decide (row.command.aggregateId = command.aggregateId) &&
      decide (row.command.aggregateVersion = command.aggregateVersion) &&
      decide (row.command.messageType = command.messageType))

/-- `ControlMessagingRepository.enqueue`, with the unique keys of the table. -/
def enqueue (now : Instant) (command : Command) : WorkflowTx Unit := do
  let s ← get
  require (s.outbox.any command.conflicts = false) .duplicateMessage
  modify fun s ↦ { s with
    outbox := s.outbox ++ [{ command := command, availableAt := now, createdAt := now }] }

/-- The tables after a scan was flushed. -/
def WorkflowTables.saveScan (s : WorkflowTables) (scan : Scan) : WorkflowTables :=
  { s with scans := Table.replace Scan.id { scan with version := scan.version + 1 } s.scans }

/-- The tables after a site clone was flushed. -/
def WorkflowTables.saveSiteClone (s : WorkflowTables) (clone : SiteCloneRow) : WorkflowTables :=
  { s with
    siteClones := Table.replace (fun clone ↦ clone.id) { clone with version := clone.version + 1 }
      s.siteClones }

/-- Flushes a scan that changed. -/
def saveScan (scan : Scan) : WorkflowTx Unit :=
  modify fun s ↦ s.saveScan scan

/-- Flushes a site clone that changed. -/
def saveSiteClone (clone : SiteCloneRow) : WorkflowTx Unit :=
  modify fun s ↦ s.saveSiteClone clone

def insertInbox (messageId : Uuid) (hash : ByteString) : WorkflowTx Unit :=
  modify fun s ↦ { s with
    inbox := s.inbox ++ [{ messageId := messageId, payloadSha256 := hash }] }

/-! ### Idempotency keys -/

/-- `IdempotencyKeyService.hashOptional`. -/
def hashOptional (env : WorkflowEnv) (rawKey : Option String) : WorkflowTx (Option String) :=
  match rawKey with
  | none => pure none
  | some raw => do
    require ((strip raw).toList ≠ [] ∧ utf16Length (strip raw) ≤ 128) .invalidIdempotencyKey
    pure (some (env.sha256Hex (strip raw)))

/-- `IdempotencyKeyService.fingerprint`. -/
def WorkflowEnv.fingerprint (env : WorkflowEnv) (operation resourceId : String) : String :=
  env.sha256Hex (operation ++ ":" ++ resourceId)

/-! ### Websites -/

/-- The constraints of the table on the lengths of texts. -/
def Website.check (website : Website) : Bool :=
  decide (website.displayName.length ≤ 120) && decide (website.canonicalUrl.length ≤ 2048) &&
    decide (website.hostname.length ≤ 253)

def insertWebsite (website : Website) : WorkflowTx Unit := do
  require (website.check = true) .constraintViolation
  modify fun s ↦ { s with websites := s.websites ++ [website] }

/-- `findByOwnerIdAndCanonicalUrlAndStatus` with an active status. -/
def findActiveWebsite (ownerId : Uuid) (canonicalUrl : String) (websites : List Website) :
    Option Website :=
  websites.find? fun website ↦ decide (website.ownerId = ownerId) &&
    decide (website.canonicalUrl = canonicalUrl) && decide (website.status = .active)

/-- `WebsiteService.create`. -/
def createWebsite (env : WorkflowEnv) (userActive : Bool) (ownerId : Uuid) (name url : String) :
    WorkflowTx Uuid := do
  require (userActive = true) .invalidUser
  let target ← found (env.parseTarget url) .invalidWebsiteUrl
  let s ← get
  require (findActiveWebsite ownerId target.canonicalUrl s.websites = none)
    .websiteAlreadyRegistered
  let id ← drawUuid
  insertWebsite {
    id := id, ownerId := ownerId, displayName := strip name
    canonicalUrl := target.canonicalUrl, hostname := target.hostname }
  pure id

/-- `WebsiteService.resolveOrCreateForSiteClone`. -/
def resolveOrCreateForSiteClone (env : WorkflowEnv) (ownerId : Uuid) (rawUrl : String) :
    WorkflowTx Website := do
  let target ← found (env.parseTarget rawUrl) .invalidWebsiteUrl
  let s ← get
  match findActiveWebsite ownerId target.canonicalUrl s.websites with
  | some existing => pure existing
  | none =>
    let id ← drawUuid
    let website : Website := {
      id := id, ownerId := ownerId, displayName := target.hostname
      canonicalUrl := target.canonicalUrl, hostname := target.hostname }
    insertWebsite website
    pure website

/-- `findForUpdate` with an active status. -/
def findWebsiteForUpdate (websiteId ownerId : Uuid) (websites : List Website) : Option Website :=
  websites.find? fun website ↦ decide (website.id = websiteId) &&
    decide (website.ownerId = ownerId) && decide (website.status = .active)

/-- An active scan of the website by the user. -/
def Scan.isActiveFor (websiteId userId : Uuid) (scan : Scan) : Bool :=
  decide (scan.websiteId = websiteId) && decide (scan.requestedByUserId = userId) &&
    scan.status.isActive

/-- `WebsiteService.archive`. -/
def archiveWebsite (userActive : Bool) (ownerId websiteId : Uuid) : WorkflowTx Unit := do
  require (userActive = true) .invalidUser
  let s ← get
  let website ← found (findWebsiteForUpdate websiteId ownerId s.websites) .websiteNotFound
  require (s.scans.any (Scan.isActiveFor websiteId ownerId) = false) .websiteHasActiveScan
  modify fun s ↦ { s with
    websites := Table.update (fun other ↦ decide (other.id = website.id))
      (fun other ↦ { other with status := .archived, version := other.version + 1 }) s.websites }

/-! ### Scans -/

/-- `ScanService.MAX_ACTIVE_SCANS_PER_USER`. -/
def maxActiveScansPerUser : ℕ := 3

/-- `ScanService.COLLECTOR_VERSION`. -/
def collectorVersion : String := "crawler-v1"

/-- The command for a new scan. -/
def scanCommand (messageId correlationId : Uuid) (now : Instant) (scan : Scan)
    (website : Website) : Crawler.ScanCommandEnvelope where
  messageId := messageId
  aggregateType := "SCAN"
  aggregateId := scan.id
  aggregateVersion := scan.version
  messageType := "SCAN_REQUESTED"
  contractVersion := 1
  correlationId := correlationId
  occurredAt := now
  payload := {
    scanId := scan.id, ownerId := scan.requestedByUserId, websiteId := website.id
    targetURL := ofText website.canonicalUrl, targetHostname := ofText website.hostname
    maxPages := scan.maxPages, maxDepth := scan.maxDepth
    maxResponseBytes := scan.maxResponseBytes, maxDurationSeconds := scan.maxDurationSeconds
    maxRedirects := scan.maxRedirects, maxConcurrency := scan.concurrency
    collectorVersion := ofText scan.collectorVersion }

/-- The command that cancels a scan. -/
def scanCancelCommand (messageId correlationId userId : Uuid) (now : Instant) (scan : Scan) :
    Crawler.ScanCancelCommandEnvelope where
  messageId := messageId
  aggregateType := "SCAN"
  aggregateId := scan.id
  aggregateVersion := scan.version
  messageType := "SCAN_CANCEL_REQUESTED"
  contractVersion := 1
  correlationId := correlationId
  occurredAt := now
  payload := { scanId := scan.id, ownerId := userId, requestedAt := now }

/-- A scan of the user under the idempotency key. -/
def findByKey (userId : Uuid) (keyHash : String) (scans : List Scan) : Option Scan :=
  scans.find? fun scan ↦ decide (scan.requestedByUserId = userId) &&
    decide (scan.idempotencyKeyHash = some keyHash)

/-- `ScanService.create`: the scan, and whether it was there before. -/
def createScan (env : WorkflowEnv) (userActive : Bool) (now : Instant) (userId websiteId : Uuid)
    (rawIdempotencyKey : Option String) (correlationId : Uuid) : WorkflowTx (Uuid × Bool) := do
  require (userActive = true) .invalidUser
  let s ← get
  let website ← found (findWebsiteForUpdate websiteId userId s.websites) .websiteNotFound
  require (env.isObviouslyNonPublicHostname website.hostname = false) .unsafeScanTarget
  let keyHash ← hashOptional env rawIdempotencyKey
  let fingerprint := keyHash.map fun _ ↦ env.fingerprint "create-scan-v1" (env.uuidText websiteId)
  match keyHash.bind fun keyHash ↦ findByKey userId keyHash s.scans with
  | some existing =>
    require (existing.requestFingerprintHash = fingerprint) .idempotencyKeyReused
    pure (existing.id, true)
  | none =>
    require (s.scans.any (Scan.isActiveFor websiteId userId) = false) .websiteScanAlreadyActive
    require (s.scans.countP (fun scan ↦ decide (scan.requestedByUserId = userId) &&
      scan.status.isActive) < maxActiveScansPerUser) .activeScanQuotaExceeded
    let id ← drawUuid
    let scan := newScan id websiteId userId env.limits collectorVersion keyHash fingerprint
    modify fun s ↦ { s with scans := s.scans ++ [scan] }
    let messageId ← drawUuid
    enqueue now (.scanRequested (scanCommand messageId correlationId now scan website))
    pure (id, false)

/-- `findByIdAndRequestedByUserIdForUpdate`. -/
def findScanForUpdate (scanId userId : Uuid) (scans : List Scan) : Option Scan :=
  scans.find? fun scan ↦ decide (scan.id = scanId) && decide (scan.requestedByUserId = userId)

/-- Saves a scan that is now being cancelled, and enqueues the command. -/
def enqueueCancellation (now : Instant) (userId correlationId : Uuid) (scan : Scan) :
    WorkflowTx Unit := do
  saveScan scan
  let messageId ← drawUuid
  enqueue now (.scanCancelRequested (scanCancelCommand messageId correlationId userId now
    { scan with version := scan.version + 1 }))

/-- `ScanService.cancel`: whether the cancellation is new. -/
def cancelScan (userActive : Bool) (now : Instant) (userId scanId correlationId : Uuid) :
    WorkflowTx Bool := do
  require (userActive = true) .invalidUser
  let s ← get
  let scan ← found (findScanForUpdate scanId userId s.scans) .scanNotFound
  match scan.requestCancellation with
  | .error _ => throw .scanNotCancellable
  | .ok none => pure false
  | .ok (some next) =>
    enqueueCancellation now userId correlationId next
    pure true

/-- `ScanService.cancelForSiteClone`, which lets a terminal scan be. -/
def cancelForSiteClone (now : Instant) (userId scanId correlationId : Uuid) :
    WorkflowTx Unit := do
  let s ← get
  let scan ← found (findScanForUpdate scanId userId s.scans) .scanNotFound
  match scan.requestCancellation with
  | .ok (some next) => enqueueCancellation now userId correlationId next
  | _ => pure ()

/-! ### Site clones -/

/-- `SiteCloneRequestEntity.markReadyForDispatch`. -/
def SiteCloneRow.markReadyForDispatch (clone : SiteCloneRow) : Option SiteCloneRow :=
  if clone.status ≠ .waitingForScan then none else some { clone with status := .queued }

/-- `SiteCloneRequestEntity.failFromScan`. -/
def SiteCloneRow.failFromScan (clone : SiteCloneRow) (code message : String) :
    Option SiteCloneRow :=
  if clone.status.isTerminal = true then none
  else some { clone with
    status := .failed
    terminalCode := some (boundedText (some code) 64)
    terminalMessage := some (boundedText (some message) 500) }

/-- `SiteCloneRequestEntity.requestCancellation`. -/
def SiteCloneRow.requestCancellation (clone : SiteCloneRow) : Option SiteCloneRow :=
  if clone.status.isTerminal = true ∨ clone.status = .cancelRequested then none
  else if clone.status = .waitingForScan ∨ clone.status = .queued then
    some { clone with status := .cancelled }
  else some { clone with status := .cancelRequested }

/-- The command for a site clone whose scan has ended. -/
def siteCloneCommand (env : WorkflowEnv) (messageId correlationId : Uuid) (scan : Scan)
    (clone : SiteCloneRow) : SiteClone.SiteCloneRequestedEnvelope where
  messageId := messageId
  aggregateId := clone.id
  aggregateVersion := clone.version.toNat
  correlationId := correlationId
  payload := {
    siteCloneRequestId := clone.id, ownerId := clone.ownerId, scanId := clone.scanId
    rootUrl := clone.targetUrl
    policy := { env.siteClone with
      maxPages := (min scan.maxPages env.siteClone.maxPages).toNat } }

/-- The command that cancels a site clone. -/
def siteCloneCancelCommand (messageId correlationId ownerId : Uuid) (clone : SiteCloneRow) :
    SiteClone.SiteCloneCancelEnvelope where
  messageId := messageId
  aggregateId := clone.id
  aggregateVersion := clone.version.toNat
  correlationId := correlationId
  siteCloneRequestId := clone.id
  ownerId := ownerId

/-- The constraints of the table on the target URL and the scan. -/
def SiteCloneRow.check (clone : SiteCloneRow) (clones : List SiteCloneRow) : Bool :=
  decide ((ofText clone.targetUrl).length ≤ 2048) && !isBlank clone.targetUrl &&
    clones.all fun other ↦ !decide (other.scanId = clone.scanId)

/-- `SiteCloneService.create`: the site clone, and whether it was there before. -/
def createSiteClone (env : WorkflowEnv) (userActive : Bool) (now : Instant) (ownerId : Uuid)
    (url : String) (rawIdempotencyKey : Option String) (correlationId : Uuid) :
    WorkflowTx (Uuid × Bool) := do
  require (userActive = true) .invalidUser
  let target ← found (env.parseTarget url) .invalidWebsiteUrl
  let keyHash ← hashOptional env rawIdempotencyKey
  let keyHash ← found keyHash .idempotencyKeyRequired
  let fingerprint := env.fingerprint "create-site-clone-v1" target.canonicalUrl
  let s ← get
  match s.siteClones.find? fun clone ↦ decide (clone.ownerId = ownerId) &&
      decide (clone.idempotencyKeyHash = keyHash) with
  | some existing =>
    require (existing.requestFingerprintHash = fingerprint) .idempotencyKeyReused
    pure (existing.id, true)
  | none =>
    let website ← resolveOrCreateForSiteClone env ownerId target.canonicalUrl
    let scan ← createScan env userActive now ownerId website.id
      (some ("site-clone-scan:" ++ keyHash)) correlationId
    let id ← drawUuid
    let clone : SiteCloneRow := {
      id := id, ownerId := ownerId, websiteId := website.id, scanId := scan.1
      targetUrl := website.canonicalUrl, idempotencyKeyHash := keyHash
      requestFingerprintHash := fingerprint }
    let s ← get
    require (clone.check s.siteClones = true) .constraintViolation
    modify fun s ↦ { s with siteClones := s.siteClones ++ [clone] }
    pure (id, false)

/-- `findOwnedForUpdate`. -/
def findSiteCloneForUpdate (siteCloneId ownerId : Uuid) (clones : List SiteCloneRow) :
    Option SiteCloneRow :=
  clones.find? fun clone ↦ decide (clone.id = siteCloneId) && decide (clone.ownerId = ownerId)

/-- The end of `SiteCloneService.cancel`: a clone that was not waiting is cancelled by a command. -/
def cancelOwnedSiteClone (now : Instant) (ownerId siteCloneId correlationId : Uuid) :
    WorkflowTx Bool := do
  let s ← get
  let clone ← found (findSiteCloneForUpdate siteCloneId ownerId s.siteClones) .siteCloneNotFound
  match clone.requestCancellation with
  | none => pure false
  | some next =>
    saveSiteClone next
    if clone.status = .waitingForScan then pure true
    else do
      let messageId ← drawUuid
      enqueue now (.siteClone (.cancelRequested (siteCloneCancelCommand messageId correlationId
        ownerId { next with version := next.version + 1 })))
      pure true

/-- `SiteCloneService.cancel`: whether the cancellation is new. -/
def cancelSiteClone (userActive : Bool) (now : Instant) (ownerId siteCloneId correlationId : Uuid) :
    WorkflowTx Bool := do
  require (userActive = true) .invalidUser
  let s ← get
  let snapshot ← found (findSiteCloneForUpdate siteCloneId ownerId s.siteClones) .siteCloneNotFound
  if snapshot.status = .waitingForScan then do
    cancelForSiteClone now ownerId snapshot.scanId correlationId
    cancelOwnedSiteClone now ownerId siteCloneId correlationId
  else cancelOwnedSiteClone now ownerId siteCloneId correlationId

/-- `SiteCloneScanCoordinator.onScanProjectionApplied`. -/
def onScanProjectionApplied (env : WorkflowEnv) (now : Instant) (scan : Scan)
    (correlationId : Uuid) : WorkflowTx Unit := do
  if scan.status.isTerminal = false then pure ()
  else
    let s ← get
    match s.siteClones.find? fun clone ↦ decide (clone.scanId = scan.id) with
    | none => pure ()
    | some clone =>
      if scan.status = .cancelled then
        match clone.failFromScan "SOURCE_SCAN_NOT_CLONEABLE"
            "The automatically created scan was cancelled before cloning could start." with
        | none => pure ()
        | some next => saveSiteClone next
      else
        match clone.markReadyForDispatch with
        | none => pure ()
        | some next =>
          saveSiteClone next
          let messageId ← drawUuid
          enqueue now (.siteClone (.requested (siteCloneCommand env messageId correlationId scan
            { next with version := next.version + 1 })))

/-! ### Events -/

/-- The text of an execution status in an event. -/
def executionStatusText : ExecutionStatus → String
  | .queued => "QUEUED"
  | .running => "RUNNING"
  | .cancelRequested => "CANCEL_REQUESTED"
  | .indexing => "INDEXING"
  | .completed => "COMPLETED"
  | .partialSuccess => "PARTIAL_SUCCESS"
  | .failed => "FAILED"
  | .cancelled => "CANCELLED"

theorem toUpper_eq_self {text : String} (h : text.toList.map Char.toUpper = text.toList) :
    text.toUpper = text := by
  apply String.toList_inj.1
  rw [String.toUpper, String.toList_map, h]

@[simp]
theorem executionStatusText_toUpper (status : ExecutionStatus) :
    (executionStatusText status).toUpper = executionStatusText status := by
  apply toUpper_eq_self
  cases status <;> rfl

@[simp]
theorem jobStatusText_toUpper (status : SiteClone.JobStatus) :
    (jobStatusText status).toUpper = jobStatusText status := by
  apply toUpper_eq_self
  cases status <;> rfl

/-- A count that the constraints of a payload allow. -/
def isCount (count : ℤ) : Bool :=
  decide (0 ≤ count) && decide (count ≤ 1_000_000)

/-- The constraints of `ScanEventEnvelope` and `ScanProgressPayload`. -/
def isValidScanEvent (envelope : Crawler.ScanEventEnvelope) : Bool :=
  let payload := envelope.payload
  isNotBlank envelope.aggregateType && hasSize 64 (some envelope.aggregateType) &&
    decide (0 ≤ envelope.aggregateVersion) && isNotBlank envelope.messageType &&
    hasSize 128 (some envelope.messageType) && decide (1 ≤ envelope.contractVersion) &&
    isNotBlank (executionStatusText payload.status) &&
    hasSize 32 (some (executionStatusText payload.status)) &&
    isCount payload.discoveredCount && isCount payload.queuedCount &&
    isCount payload.processedCount && isCount payload.succeededCount &&
    isCount payload.failedCount && isCount payload.analyticsExpectedCount &&
    isCount payload.analyticsPublishedCount && hasSize 64 (some payload.terminalCode) &&
    hasSize 500 (some payload.terminalMessage)

/-- `ScanEventService.validateEnvelope`. -/
def validateScanEnvelope (envelope : Crawler.ScanEventEnvelope) : Bool :=
  decide (envelope.aggregateType = "SCAN") && decide (envelope.messageType = "SCAN_PROGRESS") &&
    decide (envelope.contractVersion = 1) &&
    decide (envelope.aggregateId = envelope.payload.scanId)

/-- The projection that an event asks for; nothing is an illegal argument or an inconsistent
count. -/
def Scan.projectionOf (scan : Scan) (envelope : Crawler.ScanEventEnvelope) :
    Option RemoteScanProjection :=
  let payload := envelope.payload
  (ScanStatus.valueOf (executionStatusText payload.status).toUpper).bind fun status ↦
    (ScanProgress.of payload.discoveredCount payload.queuedCount payload.processedCount
      payload.succeededCount payload.failedCount scan.maxPages).bind fun progress ↦
        if payload.discoveredCount < payload.queuedCount + payload.processedCount then none
        else RemoteScanProjection.of envelope.aggregateVersion status progress
          payload.analyticsExpectedCount payload.analyticsPublishedCount
          (emptyToNull (some payload.terminalCode)) (emptyToNull (some payload.terminalMessage))

/-- The constraints of the table on what a projection changes. -/
def Scan.check (scan : Scan) : Bool :=
  decide (0 ≤ scan.discoveredCount ∧ 0 ≤ scan.queuedCount ∧ 0 ≤ scan.processedCount ∧
      0 ≤ scan.succeededCount ∧ 0 ≤ scan.failedCount) &&
    decide (scan.discoveredCount ≤ scan.maxPages ∧ scan.queuedCount ≤ scan.maxPages ∧
      scan.processedCount ≤ scan.maxPages) &&
    decide (scan.queuedCount ≤ scan.discoveredCount ∧ scan.processedCount ≤ scan.discoveredCount) &&
    decide (scan.processedCount = scan.succeededCount + scan.failedCount) &&
    decide (0 ≤ scan.analyticsExpectedCount ∧ 0 ≤ scan.analyticsPublishedCount ∧
      scan.analyticsPublishedCount ≤ scan.analyticsExpectedCount)

/-- `ScanEventController.consume` and `ScanEventService.consume`. -/
def consumeScanEvent (env : WorkflowEnv) (now : Instant) (envelope : Crawler.ScanEventEnvelope) :
    WorkflowTx ConsumeOutcome := do
  require (isValidScanEvent envelope = true) .validationFailed
  require (validateScanEnvelope envelope = true) .eventRejected
  let hash := env.sha256 (env.writeScanPayload envelope.payload)
  let s ← get
  match s.inbox.find? fun record ↦ decide (record.messageId = envelope.messageId) with
  | some record =>
    require (record.payloadSha256 = hash) .messageIdCollision
    pure .ignoredDuplicate
  | none =>
    let scan ← found (findScanForUpdate envelope.payload.scanId envelope.payload.ownerId s.scans)
      .scanNotFound
    if envelope.aggregateVersion ≤ scan.remoteExecutionVersion then do
      insertInbox envelope.messageId hash
      pure .ignoredStale
    else
      let projection ← found (scan.projectionOf envelope) .eventRejected
      match scan.applyRemoteProjection projection with
      | .error .illegalArgument => throw .eventRejected
      | .error _ => throw .internalError
      | .ok none =>
        insertInbox envelope.messageId hash
        pure .ignoredStale
      | .ok (some next) =>
        require (next.check = true) .constraintViolation
        saveScan next
        onScanProjectionApplied env now next envelope.correlationId
        insertInbox envelope.messageId hash
        pure .applied

/-- The constraints of `SiteCloneEventEnvelope` and `SiteCloneProgressPayload`. -/
def isValidSiteCloneEvent (envelope : SiteClone.SiteCloneEventEnvelope) : Bool :=
  let payload := envelope.payload
  isNotBlank envelope.aggregateType && decide (1 ≤ envelope.aggregateVersion) &&
    isNotBlank envelope.messageType && decide (1 ≤ envelope.contractVersion) &&
    isNotBlank (jobStatusText payload.status) && hasSize 32 (some (jobStatusText payload.status)) &&
    decide (payload.discoveredCount ≤ 100_000) && decide (payload.processedCount ≤ 100_000) &&
    decide (payload.succeededCount ≤ 100_000) && decide (payload.failedCount ≤ 100_000) &&
    decide (payload.artifactCount ≤ 100_000) &&
    decide (payload.totalArchiveBytes ≤ 53_687_091_200) && hasSize 64 payload.terminalCode &&
    hasSize 500 payload.terminalMessage

/-- `SiteCloneEventService.validateEnvelope`. -/
def validateSiteCloneEnvelope (envelope : SiteClone.SiteCloneEventEnvelope) : Bool :=
  decide (envelope.aggregateType = "SITE_CLONE") &&
    decide (envelope.messageType = "SITE_CLONE_PROGRESS") &&
    decide (envelope.contractVersion = 1) &&
    decide (envelope.aggregateId = envelope.payload.siteCloneRequestId)

/-- `SiteCloneEventService.consume`. -/
def consumeSiteCloneEvent (env : WorkflowEnv) (envelope : SiteClone.SiteCloneEventEnvelope) :
    WorkflowTx ConsumeOutcome := do
  require (isValidSiteCloneEvent envelope = true) .validationFailed
  require (validateSiteCloneEnvelope envelope = true) .siteCloneEventRejected
  let hash := env.sha256 (env.writeSiteClonePayload envelope.payload)
  let s ← get
  match s.inbox.find? fun record ↦ decide (record.messageId = envelope.messageId) with
  | some record =>
    require (record.payloadSha256 = hash) .messageIdCollision
    pure .ignoredDuplicate
  | none =>
    let clone ← found (findSiteCloneForUpdate envelope.payload.siteCloneRequestId
      envelope.payload.ownerId s.siteClones) .siteCloneNotFound
    match clone.toSiteCloneRequest.applyRemote envelope with
    | .error _ => throw .siteCloneEventRejected
    | .ok none =>
      insertInbox envelope.messageId hash
      pure .ignoredStale
    | .ok (some next) =>
      saveSiteClone { clone with toSiteCloneRequest := next }
      insertInbox envelope.messageId hash
      pure .applied

end WebLens.ControlPlane
