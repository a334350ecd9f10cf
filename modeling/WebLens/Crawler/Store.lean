import Mathlib.Data.List.Sort
import WebLens.Crawler.Payload
import WebLens.Lib.Table
import WebLens.Lib.Transaction

/-!
# The crawler's store

The tables of the crawler's database and the transactions of `postgres.Store`. A transaction is one
atomic step: it is committed as a whole, or fails and leaves every table as it was.

Every reading of a clock is an argument. So is every set of rows that a `SKIP LOCKED` clause finds
locked by another transaction. Columns that no transaction reads are left out, and so are the
constraints of the tables, which can only make a transaction fail.
-/

set_option autoImplicit false
set_option relaxedAutoImplicit false

namespace WebLens.Crawler

open Lib Lib.Utf8 Lib.Transaction

/-! ### Tables -/

/-- A row of `crawl_executions`. -/
structure Execution where
  id : Uuid
  scanId : Uuid
  ownerId : Uuid
  websiteId : Uuid
  retentionMonth : Instant
  status : ExecutionStatus
  commandVersion : ℤ
  targetURL : ByteString
  targetHostname : ByteString
  maxPages : ℤ
  maxDepth : ℤ
  maxResponseBytes : ℤ
  maxDurationSeconds : ℤ
  maxRedirects : ℤ
  maxConcurrency : ℤ
  collectorVersion : ByteString
  discoveredCount : ℤ := 0
  queuedCount : ℤ := 0
  leasedCount : ℤ := 0
  persistingCount : ℤ := 0
  succeededCount : ℤ := 0
  failedCount : ℤ := 0
  skippedCount : ℤ := 0
  cancelledCount : ℤ := 0
  analyticsExpectedCount : ℤ := 0
  analyticsPublishedCount : ℤ := 0
  progressVersion : ℤ := 0
  terminalCode : Option String := none
  terminalMessage : Option String := none
  acceptedAt : Instant
  updatedAt : Instant
  deriving DecidableEq

/-- A row of `scan_pages`. -/
structure Page where
  retentionMonth : Instant
  id : Uuid
  executionId : Uuid
  ownerId : Uuid
  normalizedURL : ByteString
  hostname : ByteString
  discoveryDepth : ℕ
  priority : ℕ := 100
  status : PageStatus
  pendingTerminalStatus : Option TerminalStatus := none
  attemptCount : ℕ := 0
  availableAt : Instant
  leaseOwner : Option Uuid := none
  leaseGeneration : ℕ := 0
  leaseExpiresAt : Option Instant := none
  resultVersion : ℕ := 0
  discoveredAt : Instant
  deriving DecidableEq

/-- A row of `host_leases`. -/
structure HostLease where
  hostname : ByteString
  slotNo : ℕ
  leaseOwner : Option Uuid := none
  leaseGeneration : ℕ := 0
  leaseExpiresAt : Option Instant := none
  nextAllowedAt : Instant
  deriving DecidableEq

/-- A row of `analytics_outbox`. The payload is the text that reading the column gives back. -/
structure AnalyticsOutboxRow where
  id : Uuid
  retentionMonth : Instant
  executionId : Uuid
  ownerId : Uuid
  pageId : Uuid
  resultVersion : ℕ
  status : DeliveryStatus
  payload : Option ByteString
  payloadSHA256 : ByteString
  availableAt : Instant
  deliveryAttempts : ℕ := 0
  leaseOwner : Option Uuid := none
  leaseExpiresAt : Option Instant := none
  createdAt : Instant
  deriving DecidableEq

/-- A row of `outbox_events`. -/
structure OutboxEvent where
  messageId : Uuid
  aggregateType : String
  aggregateId : Uuid
  aggregateVersion : ℤ
  eventType : String
  correlationId : Uuid
  payload : ScanEventEnvelope
  status : DeliveryStatus
  availableAt : Instant
  deliveryAttempts : ℕ := 0
  leaseOwner : Option Uuid := none
  leaseExpiresAt : Option Instant := none
  createdAt : Instant
  deriving DecidableEq

/-- A row of `inbox_messages`. -/
structure InboxMessage where
  messageId : Uuid
  aggregateId : Uuid
  aggregateVersion : ℤ
  messageType : CommandType
  correlationId : Uuid
  payloadSHA256 : ByteString
  outcome : InboxOutcome
  receivedAt : Instant
  deriving DecidableEq

/-- The database, and the source of fresh identifiers behind `uuid.New`. -/
structure Store where
  executions : List Execution := []
  pages : List Page := []
  hostLeases : List HostLease := []
  analyticsOutbox : List AnalyticsOutboxRow := []
  outboxEvents : List OutboxEvent := []
  inboxMessages : List InboxMessage := []
  nextUuid : Uuid := 1

/-- Why a transaction fails. -/
inductive StoreError
  | invalidCommand (problems : List String)
  | normalizeSeedURL
  | messageCollision
  | commandConflict
  | executionNotReady
  | staleLease
  | releasedHostLeases
  | hostSlotNotClaimed
  | progressSnapshot
  | discoverySnapshot
  | payloadTooLarge
  | payloadRefused
  | noPersistingPage
  | noCorrelation
  | claimLimit
  deriving DecidableEq

/-- The body of a transaction of the store. -/
abbrev Tx (α : Type) := Transaction Store StoreError α

/-! ### Statements -/

/-- `uuid.New()`. -/
def newUuid : Tx Uuid :=
  modifyGet fun s ↦ (s.nextUuid, { s with nextUuid := s.nextUuid + 1 })

/-- `UPDATE crawl_executions … WHERE id = …`. -/
def updateExecution (id : Uuid) (set : Execution → Execution) : Tx Unit :=
  modify fun s ↦
    { s with executions := Table.update (fun e ↦ decide (e.id = id)) set s.executions }

/-- `UPDATE scan_pages …`: the number of changed rows. -/
def updatePages (sel : Page → Bool) (set : Page → Page) : Tx ℕ :=
  modifyGet fun s ↦ (s.pages.countP sel, { s with pages := Table.update sel set s.pages })

/-- `UPDATE host_leases …`: the number of changed rows. -/
def updateHostLeases (sel : HostLease → Bool) (set : HostLease → HostLease) : Tx ℕ :=
  modifyGet fun s ↦
    (s.hostLeases.countP sel, { s with hostLeases := Table.update sel set s.hostLeases })

/-- `UPDATE analytics_outbox …`: the number of changed rows. -/
def updateAnalyticsOutbox (sel : AnalyticsOutboxRow → Bool)
    (set : AnalyticsOutboxRow → AnalyticsOutboxRow) : Tx ℕ :=
  modifyGet fun s ↦ (s.analyticsOutbox.countP sel,
    { s with analyticsOutbox := Table.update sel set s.analyticsOutbox })

/-- `UPDATE outbox_events …`: the number of changed rows. -/
def updateOutboxEvents (sel : OutboxEvent → Bool) (set : OutboxEvent → OutboxEvent) : Tx ℕ :=
  modifyGet fun s ↦
    (s.outboxEvents.countP sel, { s with outboxEvents := Table.update sel set s.outboxEvents })

/-- The row of a primary key of `scan_pages`. -/
def Page.hasKey (month : Instant) (id : Uuid) (page : Page) : Bool :=
  decide (page.retentionMonth = month) && decide (page.id = id)

/-- A page without its lease. -/
def Page.release (page : Page) : Page :=
  { page with leaseOwner := none, leaseExpiresAt := none }

/-- A host slot without its lease. -/
def HostLease.release (host : HostLease) : HostLease :=
  { host with leaseOwner := none, leaseExpiresAt := none }

/-- `lease_expires_at <= …`, which a null does not satisfy. -/
def expiredAt (expiresAt : Option Instant) (now : Instant) : Bool :=
  match expiresAt with
  | some instant => decide (instant ≤ now)
  | none => false

/-! ### Progress events -/

/-- `publicStatus`. -/
def publicStatus (internal : ExecutionStatus) (succeeded failed : ℤ) : ExecutionStatus :=
  if internal.isTerminal = false then internal
  else if internal = .cancelled then .cancelled
  else if succeeded > 0 ∧ failed = 0 then .completed
  else if succeeded > 0 then .partialSuccess
  else .failed

/-- The pages of an execution that ended without success. -/
def Execution.unsuccessfulCount (e : Execution) : ℤ :=
  e.failedCount + e.skippedCount + e.cancelledCount

/-- The public status of an execution. -/
def Execution.publicStatus (e : Execution) : ExecutionStatus :=
  Crawler.publicStatus e.status e.succeededCount e.unsuccessfulCount

/-- The payload of the progress event of an execution. -/
def Execution.progressPayload (e : Execution) : ScanProgressPayload where
  scanId := e.scanId
  ownerId := e.ownerId
  status := e.publicStatus
  discoveredCount := e.discoveredCount
  queuedCount := e.queuedCount + e.leasedCount + e.persistingCount
  processedCount := e.succeededCount + e.unsuccessfulCount
  succeededCount := e.succeededCount
  failedCount := e.unsuccessfulCount
  analyticsExpectedCount := e.analyticsExpectedCount
  analyticsPublishedCount := e.analyticsPublishedCount
  terminalCode :=
    if e.publicStatus = .failed ∧ e.terminalCode.getD "" = "" then "CRAWL_FAILED"
    else e.terminalCode.getD ""
  terminalMessage :=
    if e.publicStatus = .failed ∧ e.terminalCode.getD "" = "" then
      "No page could be crawled successfully."
    else e.terminalMessage.getD ""

/-- The progress event of an execution. -/
def Execution.progressEnvelope (e : Execution) (messageId correlationId : Uuid) (now : Instant) :
    ScanEventEnvelope where
  messageId := messageId
  aggregateType := "SCAN"
  aggregateId := e.scanId
  aggregateVersion := e.progressVersion
  messageType := scanProgressV1
  contractVersion := contractVersionV1
  correlationId := correlationId
  occurredAt := now
  payload := e.progressPayload

/-- The event of a scan with the highest version. -/
def latestEvent (scanId : Uuid) (events : List OutboxEvent) : Option OutboxEvent :=
  Table.firstBy (fun event ↦ [-event.aggregateVersion]) (events.filter fun event ↦
    decide (event.aggregateType = "SCAN") && decide (event.aggregateId = scanId))

/-- Whether the latest event of the scan is less than a second old and has the given status: the
event would repeat it. -/
def isRepetition (scanId : Uuid) (status : ExecutionStatus) (now : Instant)
    (events : List OutboxEvent) : Bool :=
  match latestEvent scanId events with
  | some latest =>
    decide (latest.createdAt + second > now) && decide (latest.payload.payload.status = status)
  | none => false

/-- The outbox row of a progress event. -/
def progressRow (envelope : ScanEventEnvelope) (now : Instant) : OutboxEvent where
  messageId := envelope.messageId
  aggregateType := "SCAN"
  aggregateId := envelope.aggregateId
  aggregateVersion := envelope.aggregateVersion
  eventType := envelope.messageType
  correlationId := envelope.correlationId
  payload := envelope
  status := .pending
  availableAt := now
  createdAt := now

/-- The rows that a progress event adds to the outbox: none when it repeats the latest event, or
when the outbox already has an event with its version. -/
def progressRows (e : Execution) (envelope : ScanEventEnvelope) (now : Instant)
    (events : List OutboxEvent) : List OutboxEvent :=
  if (e.status.isTerminal = true ∨ isRepetition e.scanId e.publicStatus now events = false) ∧
      ∀ event ∈ events, ¬ (event.aggregateType = "SCAN" ∧ event.aggregateId = e.scanId ∧
        event.aggregateVersion = e.progressVersion ∧ event.eventType = scanProgressV1) then
    [progressRow envelope now]
  else []

/-- `insertProgressEvent`. -/
def insertProgressEvent (executionId correlationId : Uuid) (now : Instant) : Tx Unit := do
  let s ← get
  let e ← found (s.executions.find? fun e ↦ decide (e.id = executionId)) .progressSnapshot
  let messageId ← newUuid
  let envelope := e.progressEnvelope messageId correlationId now
  modify fun s ↦
    { s with outboxEvents := s.outboxEvents ++ progressRows e envelope now s.outboxEvents }

/-- The correlation of the first `SCAN_REQUESTED` command of a scan. -/
def requestCorrelation (scanId : Uuid) (messages : List InboxMessage) : Option Uuid :=
  (Table.firstBy (fun message ↦ [(message.receivedAt : ℤ), message.messageId])
    (messages.filter fun message ↦ decide (message.aggregateId = scanId) &&
      decide (message.messageType = .scanRequested))).map InboxMessage.correlationId

/-- The progress event of an execution, with the correlation of its command. -/
def insertCorrelatedProgressEvent (executionId : Uuid) (now : Instant) : Tx Unit := do
  let s ← get
  let correlationId ← found
    ((s.executions.find? fun e ↦ decide (e.id = executionId)).bind fun e ↦
      requestCorrelation e.scanId s.inboxMessages) .noCorrelation
  insertProgressEvent executionId correlationId now

/-! ### Commands -/

/-- `insertInbox` and `insertCancellationInbox`. -/
def insertInbox (messageId aggregateId : Uuid) (aggregateVersion : ℤ) (messageType : CommandType)
    (correlationId : Uuid) (payloadHash : ByteString) (outcome : InboxOutcome)
    (receivedAt : Instant) : Tx Unit :=
  modify fun s ↦ { s with inboxMessages := s.inboxMessages ++ [{
    messageId := messageId, aggregateId := aggregateId, aggregateVersion := aggregateVersion,
    messageType := messageType, correlationId := correlationId, payloadSHA256 := payloadHash,
    outcome := outcome, receivedAt := receivedAt }] }

/-- The host slots `1 … hostConcurrency` that the table does not have yet. -/
def missingSlots (env : Env) (hostname : ByteString) (now : Instant) (hosts : List HostLease) :
    List HostLease :=
  ((List.range env.hostConcurrency).map fun index ↦
    ({ hostname := hostname, slotNo := index + 1, nextAllowedAt := now } : HostLease)).filter
      fun slot ↦ hosts.all fun host ↦
        !(decide (host.hostname = slot.hostname) && decide (host.slotNo = slot.slotNo))

/-- The execution that a command starts. -/
def newExecution (env : Env) (now : Instant) (envelope : ScanCommandEnvelope)
    (normalizedURL : ByteString) (executionId : Uuid) : Execution where
  id := executionId
  scanId := envelope.payload.scanId
  ownerId := envelope.payload.ownerId
  websiteId := envelope.payload.websiteId
  retentionMonth := env.monthOf now
  status := .queued
  commandVersion := envelope.aggregateVersion
  targetURL := normalizedURL
  targetHostname := env.lowerCase envelope.payload.targetHostname
  maxPages := envelope.payload.maxPages
  maxDepth := envelope.payload.maxDepth
  maxResponseBytes := envelope.payload.maxResponseBytes
  maxDurationSeconds := envelope.payload.maxDurationSeconds
  maxRedirects := envelope.payload.maxRedirects
  maxConcurrency := envelope.payload.maxConcurrency
  collectorVersion := envelope.payload.collectorVersion
  discoveredCount := 1
  queuedCount := 1
  acceptedAt := now
  updatedAt := now

/-- The seed page of an execution. -/
def seedPage (env : Env) (now : Instant) (envelope : ScanCommandEnvelope)
    (normalizedURL : ByteString) (executionId seedPageId : Uuid) : Page where
  retentionMonth := env.monthOf now
  id := seedPageId
  executionId := executionId
  ownerId := envelope.payload.ownerId
  normalizedURL := normalizedURL
  hostname := env.lowerCase envelope.payload.targetHostname
  discoveryDepth := 0
  status := .queued
  availableAt := now
  discoveredAt := now

/-- `Store.AcceptCommand`: whether the command was a duplicate. -/
def acceptCommand (env : Env) (now receivedAt : Instant) (envelope : ScanCommandEnvelope) :
    Tx Bool := do
  require (envelope.validate env = []) (.invalidCommand (envelope.validate env))
  let payloadHash := canonicalHash env (envelope.payload.json env)
  let normalizedURL ← found (env.normalizeURL envelope.payload.targetURL) .normalizeSeedURL
  let s ← get
  match s.inboxMessages.find? fun message ↦ decide (message.messageId = envelope.messageId) with
  | some message => do
    require (message.payloadSHA256 = payloadHash) .messageCollision
    pure true
  | none =>
    match s.executions.find? fun e ↦ decide (e.scanId = envelope.payload.scanId) with
    | some existing => do
      require (existing.commandVersion = envelope.aggregateVersion ∧
        existing.targetURL = normalizedURL) .commandConflict
      insertInbox envelope.messageId envelope.aggregateId envelope.aggregateVersion .scanRequested
        envelope.correlationId payloadHash .ignoredStale receivedAt
      pure true
    | none => do
      let executionId ← newUuid
      let seedPageId ← newUuid
      modify fun s ↦
        { s with
          executions := s.executions ++ [newExecution env now envelope normalizedURL executionId]
          pages := s.pages ++ [seedPage env now envelope normalizedURL executionId seedPageId]
          hostLeases := s.hostLeases ++
            missingSlots env (env.lowerCase envelope.payload.targetHostname) now s.hostLeases }
      insertInbox envelope.messageId envelope.aggregateId envelope.aggregateVersion .scanRequested
        envelope.correlationId payloadHash .applied receivedAt
      pure false

/-- Whether the page is one that cancelling the execution cancels. -/
def Page.isCancellable (executionId : Uuid) (page : Page) : Bool :=
  decide (page.executionId = executionId) &&
    (decide (page.status = .queued) || decide (page.status = .leased))

/-- A cancelled page. -/
def Page.cancel (page : Page) : Page :=
  { page.release with status := .cancelled, pendingTerminalStatus := none }

/-- Whether the host slot is leased to the owner of a leased page among the cancelled ones. -/
def HostLease.isHeldBy (cancelled : List Page) (host : HostLease) : Bool :=
  cancelled.any fun page ↦ decide (page.status = .leased) &&
    decide (host.hostname = page.hostname) && host.leaseOwner.isSome &&
    decide (host.leaseOwner = page.leaseOwner)

/-- The execution after the cancellation of its queued and leased pages. -/
def Execution.cancel (version : ℤ) (queuedCancelled leasedCancelled : ℤ) (now : Instant)
    (e : Execution) : Execution :=
  { e with
    status := if e.persistingCount = 0 ∧ e.analyticsPublishedCount = e.analyticsExpectedCount
      then .cancelled else .cancelRequested
    commandVersion := version
    queuedCount := e.queuedCount - queuedCancelled
    leasedCount := e.leasedCount - leasedCancelled
    cancelledCount := e.cancelledCount + queuedCancelled + leasedCancelled
    terminalCode := some "USER_CANCELLED"
    terminalMessage := some "The scan was cancelled by the user."
    progressVersion := e.progressVersion + 1
    updatedAt := now }

/-- `Store.AcceptCancellation`: whether the command was a duplicate. -/
def acceptCancellation (env : Env) (now receivedAt : Instant)
    (envelope : ScanCancelCommandEnvelope) : Tx Bool := do
  require (envelope.validate = []) (.invalidCommand envelope.validate)
  let payloadHash := canonicalHash env (envelope.payload.json env)
  let s ← get
  match s.inboxMessages.find? fun message ↦ decide (message.messageId = envelope.messageId) with
  | some message => do
    require (message.payloadSHA256 = payloadHash) .messageCollision
    pure true
  | none => do
    let e ← found (s.executions.find? fun e ↦ decide (e.scanId = envelope.payload.scanId) &&
      decide (e.ownerId = envelope.payload.ownerId)) .executionNotReady
    if envelope.aggregateVersion ≤ e.commandVersion ∨ e.status.isTerminal = true then do
      insertInbox envelope.messageId envelope.aggregateId envelope.aggregateVersion
        .scanCancelRequested envelope.correlationId payloadHash .ignoredStale receivedAt
      pure false
    else do
      let candidates := s.pages.filter (Page.isCancellable e.id)
      let queuedCancelled := candidates.countP fun page ↦ decide (page.status = .queued)
      let leasedCancelled := candidates.countP fun page ↦ decide (page.status = .leased)
      let _ ← updatePages (Page.isCancellable e.id) Page.cancel
      let releasedHostLeases ← updateHostLeases (HostLease.isHeldBy candidates) HostLease.release
      require (releasedHostLeases ≤ leasedCancelled) .releasedHostLeases
      updateExecution e.id
        (Execution.cancel envelope.aggregateVersion queuedCancelled leasedCancelled now)
      insertProgressEvent e.id envelope.correlationId now
      insertInbox envelope.messageId envelope.aggregateId envelope.aggregateVersion
        .scanCancelRequested envelope.correlationId payloadHash .applied receivedAt
      pure false

/-! ### Page leases -/

/-- The instant after which no page of the execution is claimed. -/
def Execution.deadline (e : Execution) : Instant :=
  e.acceptedAt + e.maxDurationSeconds.toNat * second

/-- Whether the host slot may be leased. -/
def HostLease.isFree (env : Env) (now : Instant) (host : HostLease) : Bool :=
  decide (host.slotNo ≤ env.hostConcurrency) && decide (host.nextAllowedAt ≤ now) &&
    (host.leaseOwner.isNone || expiredAt host.leaseExpiresAt now)

/-- Whether the page belongs to the execution, by its owner and month too. -/
def Page.isOf (e : Execution) (page : Page) : Bool :=
  decide (page.executionId = e.id) && decide (page.ownerId = e.ownerId) &&
    decide (page.retentionMonth = e.retentionMonth)

/-- Whether the page waits to be claimed. -/
def Page.isAvailable (now : Instant) (page : Page) : Bool :=
  decide (page.status = .queued) && decide (page.availableAt ≤ now)

/-- Whether a page of the execution may be claimed on a free host slot. -/
def Execution.isClaimable (env : Env) (now : Instant) (s : Store) (e : Execution) : Bool :=
  (decide (e.status = .queued) || decide (e.status = .running)) &&
    decide (e.leasedCount < e.maxConcurrency) && decide (e.deadline > now) &&
    s.pages.any fun page ↦ page.isOf e && page.isAvailable now &&
      s.hostLeases.any fun host ↦ decide (host.hostname = page.hostname) && host.isFree env now

/-- The rows that other transactions hold locked while a page is claimed. -/
structure ClaimLocks where
  executions : List Uuid := []
  slots : List (ByteString × ℕ) := []
  pages : List Uuid := []

/-- The execution whose page is claimed: the one with the fewest leases, then the one longest
without a change. -/
def claimExecution (env : Env) (now : Instant) (locks : ClaimLocks) (s : Store) :
    Option Execution :=
  Table.firstBy (fun e ↦ [e.leasedCount, e.updatedAt, e.acceptedAt, e.id])
    (s.executions.filter fun e ↦ e.isClaimable env now s && decide (e.id ∉ locks.executions))

/-- The free host slot with the lowest number. -/
def claimSlot (env : Env) (now : Instant) (locks : ClaimLocks) (hostname : ByteString) (s : Store) :
    Option HostLease :=
  Table.firstBy (fun host ↦ [(host.slotNo : ℤ)])
    (s.hostLeases.filter fun host ↦ decide (host.hostname = hostname) && host.isFree env now &&
      decide ((host.hostname, host.slotNo) ∉ locks.slots))

/-- The page of the execution that is claimed. -/
def claimCandidate (now : Instant) (locks : ClaimLocks) (e : Execution) (s : Store) : Option Page :=
  Table.firstBy (fun page ↦ [(page.priority : ℤ), page.discoveredAt, page.id])
    (s.pages.filter fun page ↦ page.isOf e && page.isAvailable now &&
      decide (page.id ∉ locks.pages))

/-- The lease of a claimed page. -/
def newLease (workerId : Uuid) (e : Execution) (host : HostLease) (page : Page)
    (correlationId : Uuid) : PageLease where
  retentionMonth := page.retentionMonth
  pageId := page.id
  executionId := page.executionId
  scanId := e.scanId
  ownerId := page.ownerId
  websiteId := e.websiteId
  correlationId := correlationId
  normalizedURL := page.normalizedURL
  hostname := page.hostname
  discoveryDepth := page.discoveryDepth
  leaseOwner := workerId
  leaseGeneration := page.leaseGeneration + 1
  hostSlotNo := host.slotNo
  hostGeneration := host.leaseGeneration + 1
  maxPages := e.maxPages
  maxDepth := e.maxDepth
  maxResponseBytes := e.maxResponseBytes
  maxDuration := e.maxDurationSeconds.toNat * second
  maxRedirects := e.maxRedirects
  collectorVersion := e.collectorVersion
  acceptedAt := e.acceptedAt

/-- Whether the host slot is the one of the lease. -/
def HostLease.isSlot (hostname : ByteString) (slotNo : ℕ) (host : HostLease) : Bool :=
  decide (host.hostname = hostname) && decide (host.slotNo = slotNo)

/-- The execution after one of its pages was claimed. -/
def Execution.claim (now : Instant) (e : Execution) : Execution :=
  { e with
    status := .running
    queuedCount := e.queuedCount - 1
    leasedCount := e.leasedCount + 1
    progressVersion := e.progressVersion + 1
    updatedAt := now }

/-- The page after its claim. -/
def Page.claim (lease : PageLease) (leaseUntil : Instant) (page : Page) : Page :=
  { page with
    status := .leased
    leaseOwner := some lease.leaseOwner
    leaseGeneration := lease.leaseGeneration
    leaseExpiresAt := some leaseUntil
    attemptCount := page.attemptCount + 1 }

/-- The host slot after its claim. -/
def HostLease.claim (lease : PageLease) (leaseUntil nextAllowedAt : Instant) (host : HostLease) :
    HostLease :=
  { host with
    leaseOwner := some lease.leaseOwner
    leaseGeneration := lease.hostGeneration
    leaseExpiresAt := some leaseUntil
    nextAllowedAt := nextAllowedAt }

/-- The rows that a claim of a page works on: the execution, the host slot, the page and the
correlation of the scan's command. -/
def claimRows (env : Env) (now : Instant) (locks : ClaimLocks) (s : Store) :
    Option (Execution × HostLease × Page × Uuid) := do
  let e ← claimExecution env now locks s
  let host ← claimSlot env now locks e.targetHostname s
  let page ← claimCandidate now locks e s
  let correlationId ← requestCorrelation e.scanId s.inboxMessages
  pure (e, host, page, correlationId)

/-- `Store.ClaimPage`: the lease, or nothing to claim. The clock is read for `now` and once more
for the end of the lease. -/
def claimPage (env : Env) (now leaseUntil : Instant) (hostDelay : Duration) (locks : ClaimLocks)
    (workerId : Uuid) : Tx (Option PageLease) := do
  let s ← get
  match claimRows env now locks s with
  | none => pure none
  | some (e, host, page, correlationId) => do
    let lease := newLease workerId e host page correlationId
    let claimed ← updateHostLeases
      (fun host' ↦ decide (host'.hostname = e.targetHostname) &&
        host'.isSlot lease.hostname lease.hostSlotNo)
      (HostLease.claim lease leaseUntil (now + hostDelay))
    require (claimed = 1) .hostSlotNotClaimed
    let _ ← updatePages
      (fun page' ↦ page'.hasKey lease.retentionMonth lease.pageId &&
        decide (page'.status = .queued))
      (Page.claim lease leaseUntil)
    updateExecution lease.executionId (Execution.claim now)
    insertProgressEvent lease.executionId lease.correlationId now
    pure (some lease)

/-- Whether the page is leased under the lease. -/
def Page.isLeasedUnder (lease : PageLease) (page : Page) : Bool :=
  page.hasKey lease.retentionMonth lease.pageId && decide (page.status = .leased) &&
    decide (page.leaseOwner = some lease.leaseOwner) &&
    decide (page.leaseGeneration = lease.leaseGeneration)

/-- Whether the host slot is leased under the lease. -/
def HostLease.isLeasedUnder (lease : PageLease) (host : HostLease) : Bool :=
  host.isSlot lease.hostname lease.hostSlotNo &&
    decide (host.leaseOwner = some lease.leaseOwner) &&
    decide (host.leaseGeneration = lease.hostGeneration)

/-- `Store.ExtendPageLease`. -/
def extendPageLease (leaseUntil : Instant) (lease : PageLease) : Tx Unit := do
  let pages ← updatePages (Page.isLeasedUnder lease)
    fun page ↦ { page with leaseExpiresAt := some leaseUntil }
  require (pages = 1) .staleLease
  let hosts ← updateHostLeases (HostLease.isLeasedUnder lease)
    fun host ↦ { host with leaseExpiresAt := some leaseUntil }
  require (hosts = 1) .staleLease

/-! ### Page results -/

/-- The first byte of an identifier. -/
def firstByte (id : Uuid) : ℕ :=
  id / 2 ^ 120 % 256

/-- `pageRetryDelay`. -/
def pageRetryDelay (attempt : ℕ) (key : Uuid) : Duration :=
  let base := 2 ^ (max attempt 1 - 1) * 2 * second
  base / 2 + base / 2 * firstByte key / 255

/-- `retryDelay`. -/
def retryDelay (attempt : ℕ) (key : Uuid) : Duration :=
  let base := 2 ^ (min (max attempt 1) 8 - 1) * second
  base / 2 + base / 2 * firstByte key / 255

/-- `shouldRetryPage`. -/
def shouldRetryPage (env : Env) (result : PageResult) (attempt : ℕ) : Bool :=
  if attempt ≥ 3 then false
  else if [ofText "timeout", ofText "dns_failed", ofText "network_failed",
      ofText "body_read_failed"].contains (env.lowerCase result.errorCode) = true then true
  else decide (result.statusCode = 429 ∨ result.statusCode = 500 ∨ result.statusCode = 502 ∨
    result.statusCode = 503 ∨ result.statusCode = 504)

/-- The terminal status that a result gives its page. -/
def PageResult.terminalStatus (result : PageResult) : TerminalStatus :=
  if result.fetchOutcome = ofText "SKIPPED" then .skipped
  else if result.errorCode ≠ [] ∨ result.statusCode.toInt ≥ 400 then .failed
  else .succeeded

/-- A page discovered through a link. -/
def discoveredPage (lease : PageLease) (normalizedURL : ByteString) (now : Instant)
    (pageId : Uuid) : Page where
  retentionMonth := lease.retentionMonth
  id := pageId
  executionId := lease.executionId
  ownerId := lease.ownerId
  normalizedURL := normalizedURL
  hostname := lease.hostname
  discoveryDepth := lease.discoveryDepth + 1
  status := .queued
  availableAt := now
  discoveredAt := now

/-- `INSERT INTO scan_pages … ON CONFLICT … DO NOTHING`: the number of inserted rows. -/
def insertPage (page : Page) : Tx ℕ :=
  modifyGet fun s ↦
    if s.pages.any fun other ↦ decide (other.retentionMonth = page.retentionMonth) &&
        decide (other.executionId = page.executionId) &&
        decide (other.normalizedURL = page.normalizedURL) then (0, s)
    else (1, { s with pages := s.pages ++ [page] })

/-- The loop of `insertDiscoveredPages` over the remaining links: the number of inserted pages. -/
def insertLinks (env : Env) (lease : PageLease) (remaining : ℤ) (now : Instant) :
    List DiscoveredLink → ℕ → List ByteString → Tx ℕ
  | [], inserted, _ => pure inserted
  | link :: links, inserted, seen =>
    if (inserted : ℤ) ≥ remaining ∨ link.isInternal = false ∨ link.isFollowable = false then
      insertLinks env lease remaining now links inserted seen
    else
      match env.normalizeURL link.targetURL with
      | none => insertLinks env lease remaining now links inserted seen
      | some normalized =>
        if env.isHTTPURLInScope normalized lease.hostname = false ∨ seen.contains normalized = true then
          insertLinks env lease remaining now links inserted seen
        else do
          let pageId ← newUuid
          let rows ← insertPage (discoveredPage lease normalized now pageId)
          insertLinks env lease remaining now links (inserted + rows) (normalized :: seen)

/-- `insertDiscoveredPages`: the number of inserted pages. -/
def insertDiscoveredPages (env : Env) (lease : PageLease) (links : List DiscoveredLink)
    (now : Instant) : Tx ℕ :=
  if (lease.discoveryDepth : ℤ) ≥ lease.maxDepth then pure 0
  else do
    let s ← get
    let e ← found (s.executions.find? fun e ↦ decide (e.id = lease.executionId)) .discoverySnapshot
    if lease.maxPages - e.discoveredCount ≤ 0 then pure 0
    else insertLinks env lease (lease.maxPages - e.discoveredCount) now links 0 []

/-- The analytics payload of a page result. -/
def analyticsPayload (lease : PageLease) (result : PageResult) (resultVersion : ℕ) :
    AnalyticsPayload where
  schemaVersion := 2
  ownerId := lease.ownerId
  scanId := lease.scanId
  retentionMonth := lease.retentionMonth
  pageId := lease.pageId
  recordVersion := UInt64.ofNat resultVersion
  requestedURL := lease.normalizedURL
  normalizedURL := lease.normalizedURL
  finalURL := result.finalURL
  hostname := lease.hostname
  discoveryDepth := UInt16.ofNat lease.discoveryDepth
  result := result
  collectorVersion := lease.collectorVersion
  parserVersion := ofText "weblens-parser-v3"

/-- The page requeued after a transient failure. -/
def Page.requeue (availableAt : Instant) (page : Page) : Page :=
  { page.release with status := .queued, availableAt := availableAt }

/-- The page with its result staged until the analytics are delivered. -/
def Page.stage (terminalStatus : TerminalStatus) (page : Page) : Page :=
  { page.release with
    status := .persisting
    pendingTerminalStatus := some terminalStatus
    resultVersion := page.resultVersion + 1 }

/-- The execution after a page was requeued. -/
def Execution.requeue (now : Instant) (e : Execution) : Execution :=
  { e with
    queuedCount := e.queuedCount + 1
    leasedCount := e.leasedCount - 1
    progressVersion := e.progressVersion + 1
    updatedAt := now }

/-- The execution after a page result was staged. -/
def Execution.stage (discovered : ℤ) (now : Instant) (e : Execution) : Execution :=
  { e with
    discoveredCount := e.discoveredCount + discovered
    queuedCount := e.queuedCount + discovered
    leasedCount := e.leasedCount - 1
    persistingCount := e.persistingCount + 1
    analyticsExpectedCount := e.analyticsExpectedCount + 1
    progressVersion := e.progressVersion + 1
    updatedAt := now }

/-- The branch of `CommitPageResult` that requeues the page. -/
def commitRetry (now : Instant) (lease : PageLease) (attemptCount : ℕ) : Tx Unit := do
  let _ ← updatePages (Page.hasKey lease.retentionMonth lease.pageId)
    (Page.requeue (now + pageRetryDelay attemptCount lease.pageId))
  let hosts ← updateHostLeases (HostLease.isLeasedUnder lease) HostLease.release
  require (hosts = 1) .staleLease
  updateExecution lease.executionId (Execution.requeue now)
  insertProgressEvent lease.executionId lease.correlationId now

/-- The branch of `CommitPageResult` that stages the page's result. -/
def commitResult (env : Env) (now : Instant) (lease : PageLease) (result : PageResult)
    (resultVersion : ℕ) : Tx Unit := do
  let _ ← updatePages (Page.hasKey lease.retentionMonth lease.pageId)
    (Page.stage result.terminalStatus)
  let hosts ← updateHostLeases (HostLease.isLeasedUnder lease) HostLease.release
  require (hosts = 1) .staleLease
  let discovered ← insertDiscoveredPages env lease result.links.elements now
  let encoded := (analyticsPayload lease result resultVersion).marshal env
  require (encoded.length ≤ 4_194_304) .payloadTooLarge
  let payload ← found (env.jsonb encoded) .payloadRefused
  let outboxId ← newUuid
  modify fun s ↦ { s with analyticsOutbox := s.analyticsOutbox ++ [{
    id := outboxId, retentionMonth := lease.retentionMonth, executionId := lease.executionId,
    ownerId := lease.ownerId, pageId := lease.pageId, resultVersion := resultVersion,
    status := .pending, payload := some payload, payloadSHA256 := env.sha256 encoded,
    availableAt := now, createdAt := now }] }
  updateExecution lease.executionId (Execution.stage discovered now)
  insertProgressEvent lease.executionId lease.correlationId now

/-- `Store.CommitPageResult`. -/
def commitPageResult (env : Env) (now : Instant) (lease : PageLease) (result : PageResult) :
    Tx Unit := do
  let s ← get
  let page ← found (s.pages.find? (Page.isLeasedUnder lease)) .staleLease
  if shouldRetryPage env result page.attemptCount = true then
    commitRetry now lease page.attemptCount
  else commitResult env now lease result (page.resultVersion + 1)

/-! ### Analytics delivery -/

/-- The batch that a worker reads from an outbox row it claimed. -/
def AnalyticsOutboxRow.batch (row : AnalyticsOutboxRow) (workerId : Uuid) : AnalyticsBatch where
  id := row.id
  retentionMonth := row.retentionMonth
  executionId := row.executionId
  ownerId := row.ownerId
  pageId := row.pageId
  resultVersion := row.resultVersion
  payload := row.payload.getD []
  payloadSHA256 := row.payloadSHA256
  deliveryAttempts := row.deliveryAttempts
  leaseOwner := workerId

/-- The rows of an outbox that a claim takes: the due ones, longest due first. -/
def claimIds {α : Type} (id : α → Uuid) (isDue : α → Bool) (availableAt createdAt : α → Instant)
    (limit : ℕ) (locked : List Uuid) (rows : List α) : List Uuid :=
  let key := fun row ↦ [(availableAt row : ℤ), createdAt row, id row]
  (((rows.filter fun row ↦ isDue row && decide (id row ∉ locked)).insertionSort fun first second ↦
    Table.before (key second) (key first) = false).take limit).map id

/-- Whether the row waits for its delivery. -/
def AnalyticsOutboxRow.isDue (now : Instant) (row : AnalyticsOutboxRow) : Bool :=
  (decide (row.status = .pending) || decide (row.status = .dead)) && decide (row.availableAt ≤ now)

/-- A claimed outbox row. -/
def AnalyticsOutboxRow.claim (workerId : Uuid) (leaseUntil : Instant) (row : AnalyticsOutboxRow) :
    AnalyticsOutboxRow :=
  { row with
    status := .claimed
    leaseOwner := some workerId
    leaseExpiresAt := some leaseUntil
    deliveryAttempts := row.deliveryAttempts + 1 }

/-- `Store.ClaimAnalytics`: the claimed batches. -/
def claimAnalytics (now leaseUntil : Instant) (locked : List Uuid) (workerId : Uuid) (limit : ℕ) :
    Tx (List AnalyticsBatch) := do
  require (1 ≤ limit ∧ limit ≤ 100) .claimLimit
  let s ← get
  let ids := claimIds AnalyticsOutboxRow.id (AnalyticsOutboxRow.isDue now)
    AnalyticsOutboxRow.availableAt AnalyticsOutboxRow.createdAt limit locked s.analyticsOutbox
  let _ ← updateAnalyticsOutbox (fun row ↦ decide (row.id ∈ ids))
    (AnalyticsOutboxRow.claim workerId leaseUntil)
  let s ← get
  pure ((s.analyticsOutbox.filter fun row ↦ decide (row.id ∈ ids)).map fun row ↦
    row.batch workerId)

/-- Whether the outbox row is claimed by the worker of the batch. -/
def AnalyticsOutboxRow.isClaimedBy (batch : AnalyticsBatch) (row : AnalyticsOutboxRow) : Bool :=
  decide (row.id = batch.id) && decide (row.status = .claimed) &&
    decide (row.leaseOwner = some batch.leaseOwner)

/-- A delivered outbox row. -/
def AnalyticsOutboxRow.deliver (row : AnalyticsOutboxRow) : AnalyticsOutboxRow :=
  { row with status := .delivered, payload := none, leaseOwner := none, leaseExpiresAt := none }

/-- The page with its pending terminal status. -/
def Page.complete (terminalStatus : TerminalStatus) (page : Page) : Page :=
  { page with status := terminalStatus.toPageStatus, pendingTerminalStatus := none }

/-- The execution after the analytics of a page were delivered. -/
def Execution.publish (terminalStatus : TerminalStatus) (now : Instant) (e : Execution) :
    Execution :=
  { e with
    persistingCount := e.persistingCount - 1
    succeededCount := e.succeededCount + if terminalStatus = .succeeded then 1 else 0
    failedCount := e.failedCount + if terminalStatus = .failed then 1 else 0
    skippedCount := e.skippedCount + if terminalStatus = .skipped then 1 else 0
    analyticsPublishedCount := e.analyticsPublishedCount + 1
    progressVersion := e.progressVersion + 1
    updatedAt := now }

/-- Whether the execution has no page left to work on and all its analytics are delivered. -/
def Execution.isFinished (e : Execution) : Bool :=
  decide (e.queuedCount = 0) && decide (e.leasedCount = 0) && decide (e.persistingCount = 0) &&
    decide (e.analyticsPublishedCount = e.analyticsExpectedCount)

/-- The `CASE` that gives a finished execution its terminal status. -/
def Execution.outcome (e : Execution) : ExecutionStatus :=
  if e.status = .cancelRequested then .cancelled
  else if e.succeededCount > 0 ∧ e.failedCount + e.skippedCount + e.cancelledCount = 0 then
    .completed
  else if e.succeededCount > 0 then .partialSuccess
  else .failed

/-- The `UPDATE` of `CompleteAnalytics` that makes a finished execution terminal. -/
def Execution.finish (now : Instant) (e : Execution) : Execution :=
  if e.isFinished then
    { e with
      status := e.outcome
      terminalCode :=
        if e.status = .cancelRequested then some "USER_CANCELLED" else e.terminalCode
      terminalMessage :=
        if e.status = .cancelRequested then some "The scan was cancelled by the user."
        else e.terminalMessage
      progressVersion := e.progressVersion + 1
      updatedAt := now }
  else e

/-- The terminal status of the page that a delivered batch completes; the column is not null on a
page that is persisting. -/
def pendingStatus (month : Instant) (id : Uuid) (s : Store) : Option TerminalStatus :=
  (s.pages.find? fun page ↦ page.hasKey month id && decide (page.status = .persisting)).bind
    Page.pendingTerminalStatus

/-- `Store.CompleteAnalytics`. -/
def completeAnalytics (now : Instant) (batch : AnalyticsBatch) : Tx Unit := do
  let rows ← updateAnalyticsOutbox (AnalyticsOutboxRow.isClaimedBy batch)
    AnalyticsOutboxRow.deliver
  require (rows = 1) .staleLease
  let s ← get
  let terminalStatus ← found (pendingStatus batch.retentionMonth batch.pageId s) .noPersistingPage
  let _ ← updatePages
    (fun page ↦ page.hasKey batch.retentionMonth batch.pageId &&
      decide (page.status = .persisting)) (Page.complete terminalStatus)
  updateExecution batch.executionId (Execution.publish terminalStatus now)
  updateExecution batch.executionId (Execution.finish now)
  insertCorrelatedProgressEvent batch.executionId now

/-- The status of a row after a failed delivery. -/
def retryStatus (deliveryAttempts : ℕ) : DeliveryStatus :=
  if deliveryAttempts ≥ 20 then .dead else .pending

/-- The instant at which a failed delivery is due again. -/
def retryAt (now : Instant) (deliveryAttempts : ℕ) (delay : Duration) : Instant :=
  if deliveryAttempts ≥ 20 then now + 300 * second + delay else now + delay

/-- `Store.RetryAnalytics`. -/
def retryAnalytics (now : Instant) (batch : AnalyticsBatch) : Tx Unit := do
  let rows ← updateAnalyticsOutbox (AnalyticsOutboxRow.isClaimedBy batch) fun row ↦
    { row with
      status := retryStatus row.deliveryAttempts
      availableAt := retryAt now row.deliveryAttempts (retryDelay batch.deliveryAttempts batch.id)
      leaseOwner := none
      leaseExpiresAt := none }
  require (rows = 1) .staleLease

/-! ### Event delivery -/

/-- A claim of an event: `model.OutboxMessage`, as far as the store looks at it again. -/
structure OutboxMessage where
  messageId : Uuid
  aggregateType : String
  aggregateId : Uuid
  aggregateVersion : ℤ
  eventType : String
  correlationId : Uuid
  payload : ScanEventEnvelope
  createdAt : Instant
  deliveryAttempts : ℕ
  leaseOwner : Uuid
  deriving DecidableEq

/-- Whether the event is due and no event of its aggregate is in delivery or waits with a lower
version. -/
def OutboxEvent.isDue (now : Instant) (events : List OutboxEvent) (event : OutboxEvent) : Bool :=
  (decide (event.status = .pending) || decide (event.status = .dead)) &&
    decide (event.availableAt ≤ now) &&
    events.all fun earlier ↦ !(decide (earlier.aggregateType = event.aggregateType) &&
      decide (earlier.aggregateId = event.aggregateId) &&
      (decide (earlier.status = .claimed) ||
        (decide (earlier.status = .pending) || decide (earlier.status = .dead)) &&
          decide (earlier.aggregateVersion < event.aggregateVersion)))

/-- The message that a publisher reads from an event it claimed. -/
def OutboxEvent.message (event : OutboxEvent) (workerId : Uuid) : OutboxMessage where
  messageId := event.messageId
  aggregateType := event.aggregateType
  aggregateId := event.aggregateId
  aggregateVersion := event.aggregateVersion
  eventType := event.eventType
  correlationId := event.correlationId
  payload := event.payload
  createdAt := event.createdAt
  deliveryAttempts := event.deliveryAttempts
  leaseOwner := workerId

/-- `Store.ClaimEvents`: the claimed messages. -/
def claimEvents (now leaseUntil : Instant) (locked : List Uuid) (workerId : Uuid) (limit : ℕ) :
    Tx (List OutboxMessage) := do
  let s ← get
  let ids := claimIds OutboxEvent.messageId (OutboxEvent.isDue now s.outboxEvents)
    OutboxEvent.availableAt OutboxEvent.createdAt limit locked s.outboxEvents
  let _ ← updateOutboxEvents (fun event ↦ decide (event.messageId ∈ ids)) fun event ↦
    { event with
      status := .claimed
      leaseOwner := some workerId
      leaseExpiresAt := some leaseUntil
      deliveryAttempts := event.deliveryAttempts + 1 }
  let s ← get
  pure ((s.outboxEvents.filter fun event ↦ decide (event.messageId ∈ ids)).map fun event ↦
    event.message workerId)

/-- Whether the event is claimed by the publisher of the message. -/
def OutboxEvent.isClaimedBy (message : OutboxMessage) (event : OutboxEvent) : Bool :=
  decide (event.messageId = message.messageId) && decide (event.status = .claimed) &&
    decide (event.leaseOwner = some message.leaseOwner)

/-- `Store.CompleteEvent`, which also refuses a lease that has expired. -/
def completeEvent (now : Instant) (message : OutboxMessage) : Tx Unit := do
  let rows ← updateOutboxEvents
    (fun event ↦ event.isClaimedBy message &&
      event.leaseExpiresAt.isSome && !expiredAt event.leaseExpiresAt now)
    fun event ↦
      { event with status := .delivered, leaseOwner := none, leaseExpiresAt := none }
  require (rows = 1) .staleLease

/-- `Store.RetryEvent`. -/
def retryEvent (now : Instant) (message : OutboxMessage) : Tx Unit := do
  let rows ← updateOutboxEvents (OutboxEvent.isClaimedBy message) fun event ↦
    { event with
      status := retryStatus event.deliveryAttempts
      availableAt := retryAt now event.deliveryAttempts
        (retryDelay message.deliveryAttempts message.messageId)
      leaseOwner := none
      leaseExpiresAt := none }
  require (rows = 1) .staleLease

/-! ### Reclaiming -/

/-- The readings of the clock in `ReclaimExpired`, one for each part of a statement that reads
it. -/
structure ReclaimClock where
  analytics : Instant
  events : Instant
  leaseLock : Instant
  leaseUpdate : Instant
  deadlineLock : Instant
  deadlineUpdate : Instant
  hosts : Instant
  terminal : Instant
  now : Instant

/-- The executions that other transactions hold locked while leases and deadlines are reclaimed. -/
structure ReclaimLocks where
  leases : List Uuid := []
  deadlines : List Uuid := []

/-- Whether the page is leased with an expired lease. -/
def Page.isExpired (now : Instant) (page : Page) : Bool :=
  decide (page.status = .leased) && expiredAt page.leaseExpiresAt now

/-- The page whose lease expired: failed after its third attempt, queued again before. -/
def Page.expire (now : Instant) (page : Page) : Page :=
  { page.release with
    status := if page.attemptCount ≥ 3 then .failed else .queued
    availableAt := now }

/-- The execution after the given pages lost their leases. -/
def Execution.expire (total requeued failed : ℤ) (now : Instant) (e : Execution) : Execution :=
  { e with
    leasedCount := e.leasedCount - total
    queuedCount := e.queuedCount + requeued
    failedCount := e.failedCount + failed
    progressVersion := e.progressVersion + 1
    updatedAt := now }

/-- The pages whose leases the statement reclaims. -/
def reclaimedPage (clock : ReclaimClock) (locks : ReclaimLocks) (s : Store) (page : Page) : Bool :=
  (s.executions.any fun e ↦ decide (e.id = page.executionId) && decide (e.id ∉ locks.leases) &&
    s.pages.any fun other ↦
      decide (other.executionId = e.id) && other.isExpired clock.leaseLock) &&
    page.isExpired clock.leaseUpdate

/-- Reclaims expired page leases; the executions it changed. -/
def reclaimLeases (clock : ReclaimClock) (locks : ReclaimLocks) : Tx (List Uuid) := do
  let s ← get
  let expired := s.pages.filter (reclaimedPage clock locks s)
  let pagesOf := fun e : Execution ↦ expired.filter fun page ↦ decide (page.executionId = e.id)
  let _ ← updatePages (reclaimedPage clock locks s) (Page.expire clock.leaseUpdate)
  modify fun s ↦ { s with
    executions := Table.update (fun e ↦ !(pagesOf e).isEmpty)
      (fun e ↦ e.expire (pagesOf e).length
        ((pagesOf e).countP fun page ↦ decide (page.attemptCount < 3))
        ((pagesOf e).countP fun page ↦ decide (page.attemptCount ≥ 3)) clock.leaseUpdate)
      s.executions }
  pure ((s.executions.filter fun e ↦ !(pagesOf e).isEmpty).map Execution.id)

/-- The page that the scan deadline fails. -/
def Page.timeOut (page : Page) : Page :=
  { page with status := .failed }

/-- The execution after the deadline failed the given number of queued pages. -/
def Execution.timeOut (total : ℤ) (now : Instant) (e : Execution) : Execution :=
  { e with
    queuedCount := e.queuedCount - total
    failedCount := e.failedCount + total
    progressVersion := e.progressVersion + 1
    updatedAt := now
    terminalCode := some "SCAN_DEADLINE_EXCEEDED"
    terminalMessage := some "The bounded scan deadline was reached." }

/-- Whether the execution is active past its deadline. -/
def Execution.isOverdue (now : Instant) (e : Execution) : Bool :=
  (decide (e.status = .queued) || decide (e.status = .running)) && decide (e.deadline ≤ now)

/-- The pages that the scan deadline fails. -/
def overduePage (clock : ReclaimClock) (locks : ReclaimLocks) (s : Store) (page : Page) : Bool :=
  (s.executions.any fun e ↦ e.isOverdue clock.deadlineLock && decide (e.id ∉ locks.deadlines) &&
    (s.pages.any fun other ↦ decide (other.executionId = e.id) &&
      decide (other.status = .queued)) &&
    page.isOf e && e.isOverdue clock.deadlineUpdate) && decide (page.status = .queued)

/-- Fails the queued pages of executions past their deadline; the executions it changed. -/
def expireDeadlines (clock : ReclaimClock) (locks : ReclaimLocks) : Tx (List Uuid) := do
  let s ← get
  let expired := s.pages.filter (overduePage clock locks s)
  let pagesOf := fun e : Execution ↦ expired.filter fun page ↦ decide (page.executionId = e.id)
  let _ ← updatePages (overduePage clock locks s) Page.timeOut
  modify fun s ↦ { s with
    executions := Table.update (fun e ↦ !(pagesOf e).isEmpty)
      (fun e ↦ e.timeOut (pagesOf e).length clock.deadlineUpdate) s.executions }
  pure ((s.executions.filter fun e ↦ !(pagesOf e).isEmpty).map Execution.id)

/-- Whether `ReclaimExpired` makes the execution terminal. -/
def Execution.isStuck (e : Execution) : Bool :=
  (decide (e.status = .queued) || decide (e.status = .running) ||
    decide (e.status = .cancelRequested) || decide (e.status = .indexing)) && e.isFinished

/-- The `UPDATE` of `ReclaimExpired` that makes a finished execution terminal. -/
def Execution.terminalize (now : Instant) (e : Execution) : Execution :=
  { e with status := e.outcome, progressVersion := e.progressVersion + 1, updatedAt := now }

/-- Makes finished executions terminal; the executions it changed. -/
def terminalizeFinished (now : Instant) : Tx (List Uuid) := do
  let s ← get
  modify fun s ↦ { s with
    executions := Table.update Execution.isStuck (Execution.terminalize now) s.executions }
  pure ((s.executions.filter Execution.isStuck).map Execution.id)

/-- The progress events of the changed executions. -/
def insertProgressEvents (now : Instant) : List Uuid → Tx Unit
  | [] => pure ()
  | id :: ids => do
    insertCorrelatedProgressEvent id now
    insertProgressEvents now ids

/-- `Store.ReclaimExpired`. -/
def reclaimExpired (clock : ReclaimClock) (locks : ReclaimLocks) : Tx Unit := do
  let _ ← updateAnalyticsOutbox
    (fun row ↦ decide (row.status = .claimed) && expiredAt row.leaseExpiresAt clock.analytics)
    fun row ↦ { row with
      status := .pending, leaseOwner := none, leaseExpiresAt := none,
      availableAt := clock.analytics }
  let _ ← updateOutboxEvents
    (fun event ↦ decide (event.status = .claimed) && expiredAt event.leaseExpiresAt clock.events)
    fun event ↦ { event with
      status := .pending, leaseOwner := none, leaseExpiresAt := none,
      availableAt := clock.events }
  let reclaimed ← reclaimLeases clock locks
  let overdue ← expireDeadlines clock locks
  let _ ← updateHostLeases
    (fun host ↦ host.leaseOwner.isSome && expiredAt host.leaseExpiresAt clock.hosts)
    HostLease.release
  let finished ← terminalizeFinished clock.terminal
  insertProgressEvents clock.now (reclaimed ++ overdue ++ finished).dedup

end WebLens.Crawler
