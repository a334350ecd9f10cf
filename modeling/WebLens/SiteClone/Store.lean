import Mathlib.Algebra.Order.Ring.Nat
import WebLens.SiteClone.Model
import Mathlib.Data.List.Sort
import WebLens.Capture.Store

/-!
# The site clone database

The tables of site clones and the operations of `SiteCloneDatabase` as transactions. A job is kept
together with the rows that reference it: its pages, its artifacts and its events. The clock of a
transaction is PostgreSQL's `now()`, one reading for the whole transaction. The rows that other
transactions hold locked, which `skip locked` leaves out, are arguments.
-/

set_option autoImplicit false
set_option relaxedAutoImplicit false

namespace WebLens.SiteClone

open Lib Lib.Utf8 Lib.Transaction
open Capture (Uuid Instant Duration second minute day expiredAt)

/-! ### Rows -/

/-- A row of `site_reconstruction_jobs`. -/
structure SiteJob where
  id : Uuid
  commandMessageId : Uuid
  commandPayloadSha256 : ByteString
  ownerId : Uuid
  scanId : Uuid
  correlationId : Uuid
  commandVersion : ℕ
  rootUrl : String
  status : JobStatus := .ingesting
  policy : SiteClonePolicy
  discoveredCount : ℕ := 0
  processedCount : ℕ := 0
  succeededCount : ℕ := 0
  failedCount : ℕ := 0
  inputBytes : ℕ := 0
  archiveBytes : ℕ := 0
  artifactCount : ℕ := 0
  eventVersion : ℕ := 0
  phaseLeaseOwner : Option Uuid := none
  phaseLeaseGeneration : ℕ := 0
  phaseLeaseExpiresAt : Option Instant := none
  phaseAttemptCount : ℕ := 0
  phaseAvailableAt : Instant
  terminalCode : Option String := none
  terminalMessage : Option String := none
  ingestionFinishedAt : Option Instant := none
  createdAt : Instant
  updatedAt : Instant
  deriving DecidableEq

/-- A row of `site_reconstruction_pages`. -/
structure SitePage where
  pageId : Uuid
  ordinal : ℕ
  publicUrl : String
  urlSha256 : ByteString
  localPath : String
  status : PageStatus
  attemptCount : ℕ := 0
  availableAt : Instant
  leaseOwner : Option Uuid := none
  leaseGeneration : ℕ := 0
  leaseExpiresAt : Option Instant := none
  bundle : Option StoredObject := none
  bundleState : Option BundleState := none
  bundleDeleteAfter : Option Instant := none
  inputBytes : ℕ := 0
  failureCode : Option String := none
  deriving DecidableEq

/-- A row of `site_reconstruction_artifacts`. -/
structure SiteArtifact where
  id : Uuid
  ownerId : Uuid
  kind : ArtifactKind
  generation : ℕ
  shardNumber : ℕ
  logicalFilename : String
  object : StoredObject
  state : ArtifactState := .staged
  createdAt : Instant
  deleteAfter : Instant
  deriving DecidableEq

/-- A row of `site_reconstruction_jobs` with the rows that reference it. -/
structure Clone where
  job : SiteJob
  pages : List SitePage := []
  artifacts : List SiteArtifact := []
  events : List SiteCloneEventEnvelope := []
  deriving DecidableEq

/-- What became of a cancellation. -/
inductive CommandOutcome
  | applied
  | ignoredTerminal
  deriving DecidableEq

/-- A row of `site_reconstruction_command_inbox`. -/
structure CommandInboxRow where
  messageId : Uuid
  payloadSha256 : ByteString
  outcome : CommandOutcome
  deriving DecidableEq

/-- The tables, and the next identifier that `randomUUID` gives. -/
structure Store where
  clones : List Clone := []
  commandInbox : List CommandInboxRow := []
  nextUuid : Uuid := 1
  deriving DecidableEq

/-- How an operation fails. -/
inductive Error
  | messageIdCollision
  | uniqueViolation
  | checkViolation
  | siteJobNotFound
  | staleSiteIngestionLease
  | sitePageLimitExceeded
  | staleSitePageLease
  | siteArtifactsEmpty
  | staleSiteAssemblyLease
  | siteArchiveBudgetExceeded
  | siteArtifactStageMismatch
  | staleSiteGcClaim
  deriving DecidableEq

/-- A transaction of the site clone database. -/
abbrev Tx := Transaction Store Error

/-! ### Statements -/

/-- `randomUUID()`. -/
def newUuid : Tx Uuid :=
  modifyGet fun s ↦ (s.nextUuid, { s with nextUuid := s.nextUuid + 1 })

/-- An update of jobs and of the rows that reference them: how many jobs it selected. -/
def updateClones (sel : Clone → Bool) (set : Clone → Clone) : Tx ℕ :=
  modifyGet fun s ↦ (s.clones.countP sel, { s with clones := Table.update sel set s.clones })

/-- Whether the job has the identifier. -/
def Clone.hasId (id : Uuid) (c : Clone) : Bool :=
  decide (c.job.id = id)

/-- An update of the job with the identifier, which must be there. -/
def updateClone (id : Uuid) (set : Clone → Clone) : Tx Unit := do
  let updated ← updateClones (Clone.hasId id) set
  require (updated ≠ 0) .siteJobNotFound

/-- The job with the identifier. -/
def selectClone (id : Uuid) (error : Error) : Tx Clone := do
  let s ← get
  found (s.clones.find? (Clone.hasId id)) error

/-- The clone with its pages changed. -/
def Clone.updatePages (sel : SitePage → Bool) (set : SitePage → SitePage) (c : Clone) : Clone :=
  { c with pages := Table.update sel set c.pages }

/-- The clone with its artifacts changed. -/
def Clone.updateArtifacts (sel : SiteArtifact → Bool) (set : SiteArtifact → SiteArtifact)
    (c : Clone) : Clone :=
  { c with artifacts := Table.update sel set c.artifacts }

/-- The job without a phase lease. -/
def SiteJob.releasePhase (job : SiteJob) : SiteJob :=
  { job with phaseLeaseOwner := none, phaseLeaseExpiresAt := none }

/-! ### Events -/

/-- The envelope that `enqueueEvent` inserts for a job whose version it has raised. -/
def SiteJob.progressEvent (messageId : Uuid) (status : JobStatus) (job : SiteJob) :
    SiteCloneEventEnvelope where
  messageId := messageId
  aggregateType := "SITE_CLONE"
  aggregateId := job.id
  aggregateVersion := job.eventVersion
  messageType := "SITE_CLONE_PROGRESS"
  contractVersion := 1
  correlationId := job.correlationId
  payload := {
    siteCloneRequestId := job.id
    ownerId := job.ownerId
    status := status
    discoveredCount := job.discoveredCount
    processedCount := job.processedCount
    succeededCount := job.succeededCount
    failedCount := job.failedCount
    artifactCount := job.artifactCount
    totalArchiveBytes := job.archiveBytes
    terminalCode := job.terminalCode
    terminalMessage := job.terminalMessage }

/-- The job with the next event version. -/
def SiteJob.bump (now : Instant) (job : SiteJob) : SiteJob :=
  { job with eventVersion := job.eventVersion + 1, updatedAt := now }

/-- The clone with one more event. -/
def Clone.withEvent (now : Instant) (messageId : Uuid) (status : JobStatus) (c : Clone) : Clone :=
  { c with
    job := c.job.bump now
    events := c.events ++ [(c.job.bump now).progressEvent messageId status] }

/-- `enqueueEvent`. -/
def enqueueEvent (now : Instant) (id : Uuid) (status : JobStatus) : Tx Unit := do
  let messageId ← newUuid
  updateClone id (Clone.withEvent now messageId status)

/-! ### Accepting commands -/

/-- The job of a command. -/
def newSiteJob (now : Instant) (hash : ByteString) (envelope : SiteCloneRequestedEnvelope) :
    SiteJob where
  id := envelope.payload.siteCloneRequestId
  commandMessageId := envelope.messageId
  commandPayloadSha256 := hash
  ownerId := envelope.payload.ownerId
  scanId := envelope.payload.scanId
  correlationId := envelope.correlationId
  commandVersion := envelope.aggregateVersion
  rootUrl := envelope.payload.rootUrl
  policy := envelope.payload.policy
  phaseAvailableAt := now
  createdAt := now
  updatedAt := now

/-- `acceptRequested`: whether the message had been accepted before. -/
def acceptRequested (env : Env) (now : Instant) (envelope : SiteCloneRequestedEnvelope) :
    Tx Bool := do
  let hash := env.sha256 (env.stringifyCommand (.requested envelope))
  let s ← get
  match s.clones.find? fun c ↦ decide (c.job.commandMessageId = envelope.messageId) with
  | some c =>
    require (c.job.commandPayloadSha256 = hash) .messageIdCollision
    pure true
  | none =>
    require (∀ c ∈ s.clones, c.job.id ≠ envelope.payload.siteCloneRequestId ∧
      c.job.scanId ≠ envelope.payload.scanId) .uniqueViolation
    require (envelope.payload.policy.isValid = true) .checkViolation
    modify fun s ↦ { s with clones := s.clones ++ [{ job := newSiteJob now hash envelope }] }
    pure false

/-- The clone that its owner wants cancelled. -/
def Clone.requestCancellation (now : Instant) (c : Clone) : Clone :=
  { c with job := { c.job.releasePhase with status := .cancelRequested, updatedAt := now } }

/-- `acceptCancellation`: whether the message had been accepted before. -/
def acceptCancellation (env : Env) (now : Instant) (envelope : SiteCloneCancelEnvelope) :
    Tx Bool := do
  let hash := env.sha256 (env.stringifyCommand (.cancelRequested envelope))
  let s ← get
  match s.commandInbox.find? fun row ↦ decide (row.messageId = envelope.messageId) with
  | some row =>
    require (row.payloadSha256 = hash) .messageIdCollision
    pure true
  | none =>
    let c ← found (s.clones.find? fun c ↦
      c.hasId envelope.aggregateId && decide (c.job.ownerId = envelope.ownerId)) .siteJobNotFound
    if c.job.status.isTerminal then
      modify fun s ↦ { s with
        commandInbox := s.commandInbox ++ [⟨envelope.messageId, hash, .ignoredTerminal⟩] }
    else do
      updateClone envelope.aggregateId (Clone.requestCancellation now)
      modify fun s ↦ { s with
        commandInbox := s.commandInbox ++ [⟨envelope.messageId, hash, .applied⟩] }
    pure false

/-- `SiteCloneDatabase.acceptCommand`. -/
def acceptCommand (env : Env) (now : Instant) : SiteCloneCommandEnvelope → Tx Bool
  | .requested envelope => acceptRequested env now envelope
  | .cancelRequested envelope => acceptCancellation env now envelope

/-! ### Ingestion -/

/-- `ClaimedSitePhase`. -/
structure ClaimedSitePhase where
  id : Uuid
  ownerId : Uuid
  scanId : Uuid
  correlationId : Uuid
  rootUrl : String
  policy : SiteClonePolicy
  leaseOwner : Uuid
  leaseGeneration : ℕ
  attemptCount : ℕ
  deriving DecidableEq

/-- `phaseFromRow`. -/
def SiteJob.phase (workerId : Uuid) (job : SiteJob) : ClaimedSitePhase where
  id := job.id
  ownerId := job.ownerId
  scanId := job.scanId
  correlationId := job.correlationId
  rootUrl := job.rootUrl
  policy := job.policy
  leaseOwner := workerId
  leaseGeneration := job.phaseLeaseGeneration
  attemptCount := job.phaseAttemptCount + 1

/-- The clone whose phase a worker leases. -/
def Clone.leasePhase (now : Instant) (workerId : Uuid) (lease : Duration) (status : JobStatus)
    (c : Clone) : Clone :=
  { c with
    job := { c.job with
      status := status
      phaseLeaseOwner := some workerId
      phaseLeaseGeneration := c.job.phaseLeaseGeneration + 1
      phaseLeaseExpiresAt := some (now + lease)
      updatedAt := now } }

/-- Whether no worker holds the phase. -/
def SiteJob.isPhaseFree (now : Instant) (job : SiteJob) : Bool :=
  decide (job.phaseAvailableAt ≤ now) &&
    (decide (job.phaseLeaseOwner = none) || expiredAt job.phaseLeaseExpiresAt now)

/-- Whether a worker may claim the ingestion of the clone. -/
def Clone.isIngestible (now : Instant) (c : Clone) : Bool :=
  decide (c.job.status = .ingesting) && c.job.isPhaseFree now

/-- `claimIngestion`. -/
def claimIngestion (now : Instant) (locked : List Uuid) (workerId : Uuid) :
    Tx (Option ClaimedSitePhase) := do
  let s ← get
  let candidate := Table.firstBy (fun c ↦ [(c.job.createdAt : ℤ), c.job.id])
    (s.clones.filter fun c ↦ c.isIngestible now && decide (c.job.id ∉ locked))
  match candidate with
  | none => pure none
  | some c =>
    updateClone c.job.id (Clone.leasePhase now workerId minute .ingesting)
    pure (some ((c.leasePhase now workerId minute .ingesting).job.phase workerId))

/-- Whether the claim is the recorded one. -/
def Clone.isPhaseHeldBy (claim : ClaimedSitePhase) (c : Clone) : Bool :=
  c.hasId claim.id && decide (c.job.phaseLeaseOwner = some claim.leaseOwner) &&
    decide (c.job.phaseLeaseGeneration = claim.leaseGeneration)

/-- The clone with a longer phase lease. -/
def Clone.extendPhase (now : Instant) (c : Clone) : Clone :=
  { c with
    job := { c.job with
      phaseLeaseExpiresAt :=
        some (now + if c.job.status = .assembling then 5 * minute else minute)
      updatedAt := now } }

/-- `extendPhaseLease`: whether the claim is still the recorded one. -/
def extendPhaseLease (now : Instant) (claim : ClaimedSitePhase) : Tx Bool := do
  let updated ← updateClones (fun c ↦ c.isPhaseHeldBy claim &&
    (decide (c.job.status = .ingesting) || decide (c.job.status = .assembling)))
    (Clone.extendPhase now)
  pure (decide (updated = 1))

/-- Whether the claim is the recorded one of a phase, and not expired. -/
def Clone.isPhaseLeasedBy (now : Instant) (phase : JobStatus) (claim : ClaimedSitePhase)
    (c : Clone) : Bool :=
  decide (c.job.status = phase) && c.isPhaseHeldBy claim &&
    decide (∃ expiresAt ∈ c.job.phaseLeaseExpiresAt, now < expiresAt)

/-- The page of a target. -/
def SiteTargetInput.page (now : Instant) (target : SiteTargetInput) : SitePage where
  pageId := target.pageId
  ordinal := target.ordinal
  publicUrl := target.publicUrl
  urlSha256 := target.urlSha256
  localPath := target.localPath
  status := if target.rejection.isSome then .cancelled else .queued
  availableAt := now
  failureCode := target.rejection.map DesignRejectionReason.text

/-- Whether a page conflicts with a target in a key. -/
def SitePage.conflicts (target : SiteTargetInput) (page : SitePage) : Bool :=
  decide (page.pageId = target.pageId) || decide (page.ordinal = target.ordinal) ||
    decide (page.urlSha256 = target.urlSha256) || decide (page.localPath = target.localPath)

/-- `insert … on conflict do nothing`. -/
def insertTarget (now : Instant) (pages : List SitePage) (target : SiteTargetInput) :
    List SitePage :=
  if pages.any (SitePage.conflicts target) then pages else pages ++ [target.page now]

/-- The clone with the targets that it did not have. -/
def Clone.addTargets (now : Instant) (targets : List SiteTargetInput) (c : Clone) : Clone :=
  { c with pages := targets.foldl (insertTarget now) c.pages }

/-- `addTargets`: how many of the targets are new. -/
def addTargets (now : Instant) (claim : ClaimedSitePhase) (targets : List SiteTargetInput) :
    Tx ℕ :=
  if targets = [] then pure 0
  else do
    let s ← get
    let c ← found (s.clones.find? (Clone.isPhaseLeasedBy now .ingesting claim))
      .staleSiteIngestionLease
    updateClone claim.id (Clone.addTargets now targets)
    require ((c.addTargets now targets).pages.length ≤ claim.policy.maxPages)
      .sitePageLimitExceeded
    pure ((c.addTargets now targets).pages.length - c.pages.length)

/-- The clone for which there is nothing to do. -/
def Clone.finishEmpty (now : Instant) (c : Clone) : Clone :=
  { c with
    job := { c.job.releasePhase with
      status := .failed
      terminalCode := some "NO_CLONEABLE_PAGES"
      terminalMessage := some "The scan produced no cloneable pages."
      updatedAt := now } }

/-- The clone whose pages are known. -/
def Clone.finishTargets (now : Instant) (discovered : ℕ) (c : Clone) : Clone :=
  { c with
    job := { c.job.releasePhase with
      status := .running
      phaseAttemptCount := 0
      phaseAvailableAt := now
      discoveredCount := discovered
      ingestionFinishedAt := some now
      updatedAt := now } }

/-- `finishIngestion`. -/
def finishIngestion (now : Instant) (claim : ClaimedSitePhase) : Tx Unit := do
  let s ← get
  let discovered := ((s.clones.find? (Clone.hasId claim.id)).map fun c ↦ c.pages.length).getD 0
  let status := if discovered = 0 then JobStatus.failed else .running
  let updated ← updateClones
    (fun c ↦ c.isPhaseHeldBy claim && decide (c.job.status = .ingesting))
    (if discovered = 0 then Clone.finishEmpty now else Clone.finishTargets now discovered)
  require (updated ≠ 0) .staleSiteIngestionLease
  enqueueEvent now claim.id status

/-! ### Counters -/

/-- `count(*) filter (where status=…)`. -/
def Clone.pageCount (status : PageStatus) (c : Clone) : ℕ :=
  c.pages.countP fun page ↦ decide (page.status = status)

/-- `sum(input_bytes) filter (where status='SUCCEEDED')`. -/
def Clone.succeededBytes (c : Clone) : ℕ :=
  ((c.pages.filter fun page ↦ decide (page.status = .succeeded)).map SitePage.inputBytes).sum

/-- `refreshJobCounters`, on the job. -/
def Clone.refreshJobCounters (now : Instant) (c : Clone) : Clone :=
  { c with
    job := { c.job with
      processedCount := c.pageCount .succeeded + c.pageCount .failed
      succeededCount := c.pageCount .succeeded
      failedCount := c.pageCount .failed
      inputBytes := c.succeededBytes
      updatedAt := now } }

/-- The counters after one more page has ended. -/
def Clone.increment (now : Instant) (succeeded : Bool) (inputBytes : ℕ) (c : Clone) : Clone :=
  { c with
    job := { c.job with
      processedCount := c.job.processedCount + 1
      succeededCount := c.job.succeededCount + if succeeded then 1 else 0
      failedCount := c.job.failedCount + if succeeded then 0 else 1
      inputBytes := c.job.inputBytes + inputBytes
      updatedAt := now } }

/-- `incrementJob`. -/
def incrementJob (now : Instant) (id : Uuid) (succeeded : Bool) (inputBytes : ℕ) : Tx Unit := do
  let _ ← updateClones (Clone.hasId id) (Clone.increment now succeeded inputBytes)
  let s ← get
  let processed := ((s.clones.find? (Clone.hasId id)).map fun c ↦ c.job.processedCount).getD 0
  if 0 < processed ∧ processed % 100 = 0 then enqueueEvent now id .running else pure ()

/-! ### Pages -/

/-- `ClaimedSitePage`. -/
structure ClaimedSitePage where
  jobId : Uuid
  ownerId : Uuid
  scanId : Uuid
  correlationId : Uuid
  rootUrl : String
  pageId : Uuid
  publicUrl : String
  localPath : String
  leaseOwner : Uuid
  leaseGeneration : ℕ
  attemptCount : ℕ
  maxRetries : ℕ
  deriving DecidableEq

/-- A page by its primary key. -/
abbrev PageKey := Uuid × Uuid

/-- The pages that other transactions hold locked during a claim. -/
structure PageLocks where
  expired : List PageKey := []
  candidates : List PageKey := []

/-- The page without a lease. -/
def SitePage.release (page : SitePage) : SitePage :=
  { page with leaseOwner := none, leaseExpiresAt := none }

/-- Whether the lease of the page has expired. -/
def SitePage.isExpired (now : Instant) (page : SitePage) : Bool :=
  decide (page.status = .rendering) && expiredAt page.leaseExpiresAt now

/-- The page whose lease expired. -/
def SitePage.reclaim (now : Instant) (maxRetries : ℕ) (page : SitePage) : SitePage :=
  if page.attemptCount < maxRetries then
    { page.release with
      status := .queued, availableAt := now, failureCode := some "PAGE_LEASE_EXPIRED" }
  else { page.release with status := .failed, failureCode := some "PAGE_LEASE_EXPIRED" }

/-- The expired pages that a claim reclaims: at most 100, those that expired first. -/
def expiredPages (now : Instant) (locked : List PageKey) (clones : List Clone) : List PageKey :=
  let expired := clones.flatMap fun c ↦
    ((c.pages.filter (SitePage.isExpired now)).filter fun page ↦
      decide ((c.job.id, page.pageId) ∉ locked)).map fun page ↦ (c.job.id, page)
  ((expired.mergeSort fun first second ↦
    Table.before [((second.2.leaseExpiresAt.getD 0 : Instant) : ℤ), second.2.pageId]
      [((first.2.leaseExpiresAt.getD 0 : Instant) : ℤ), first.2.pageId] = false).take 100).map
    fun entry ↦ (entry.1, entry.2.pageId)

/-- The clone without the expired leases that a claim reclaims. -/
def Clone.reclaim (now : Instant) (keys : List PageKey) (c : Clone) : Clone :=
  (c.updatePages (fun page ↦ page.isExpired now && decide ((c.job.id, page.pageId) ∈ keys))
    (SitePage.reclaim now c.job.policy.maxRetriesPerPage)).refreshJobCounters now

/-- Whether a worker may claim the page. -/
def Clone.isClaimable (now : Instant) (c : Clone) (page : SitePage) : Bool :=
  decide (c.job.status = .running) && decide (page.status = .queued) &&
    decide (page.availableAt ≤ now) &&
    decide (c.pageCount .rendering < c.job.policy.pageConcurrency)

/-- The page that a claim takes: the one that has waited longest. -/
def claimablePage (now : Instant) (locked : List PageKey) (clones : List Clone) :
    Option (Clone × SitePage) :=
  Table.firstBy (fun entry ↦ [(entry.2.availableAt : ℤ), entry.2.ordinal, entry.2.pageId])
    (clones.flatMap fun c ↦ ((c.pages.filter (c.isClaimable now)).filter fun page ↦
      decide ((c.job.id, page.pageId) ∉ locked)).map fun page ↦ (c, page))

/-- The page that a worker has claimed. -/
def SitePage.claim (now : Instant) (workerId : Uuid) (page : SitePage) : SitePage :=
  { page with
    status := .rendering
    leaseOwner := some workerId
    leaseGeneration := page.leaseGeneration + 1
    leaseExpiresAt := some (now + minute)
    attemptCount := page.attemptCount + 1
    failureCode := none }

/-- What a claim of the page returns. -/
def Clone.claimedPage (workerId : Uuid) (c : Clone) (page : SitePage) : ClaimedSitePage where
  jobId := c.job.id
  ownerId := c.job.ownerId
  scanId := c.job.scanId
  correlationId := c.job.correlationId
  rootUrl := c.job.rootUrl
  pageId := page.pageId
  publicUrl := page.publicUrl
  localPath := page.localPath
  leaseOwner := workerId
  leaseGeneration := page.leaseGeneration + 1
  attemptCount := page.attemptCount + 1
  maxRetries := c.job.policy.maxRetriesPerPage

/-- The clone one of whose pages a worker has claimed. -/
def Clone.claimPage (now : Instant) (workerId pageId : Uuid) (c : Clone) : Clone :=
  c.updatePages (fun page ↦ decide (page.pageId = pageId)) (SitePage.claim now workerId)

/-- `SiteCloneDatabase.claimPage`. -/
def claimPage (now : Instant) (locks : PageLocks) (workerId : Uuid) :
    Tx (Option ClaimedSitePage) := do
  let s ← get
  let keys := expiredPages now locks.expired s.clones
  let _ ← updateClones (fun c ↦ decide (c.job.id ∈ keys.map Prod.fst)) (Clone.reclaim now keys)
  let s ← get
  match claimablePage now locks.candidates s.clones with
  | none => pure none
  | some (c, page) =>
    updateClone c.job.id (Clone.claimPage now workerId page.pageId)
    pure (some (c.claimedPage workerId page))

/-- Whether the claim of the page is the recorded one. -/
def SitePage.isHeldBy (claim : ClaimedSitePage) (page : SitePage) : Bool :=
  decide (page.pageId = claim.pageId) && decide (page.status = .rendering) &&
    decide (page.leaseOwner = some claim.leaseOwner) &&
    decide (page.leaseGeneration = claim.leaseGeneration)

/-- Whether the claim is the recorded one of a page of the clone. -/
def Clone.isPageHeldBy (claim : ClaimedSitePage) (c : Clone) : Bool :=
  c.hasId claim.jobId && c.pages.any (SitePage.isHeldBy claim)

/-- The page with a longer lease. -/
def SitePage.extend (now : Instant) (page : SitePage) : SitePage :=
  { page with leaseExpiresAt := some (now + minute) }

/-- `extendPageLease`: whether the claim is still the recorded one. -/
def extendPageLease (now : Instant) (claim : ClaimedSitePage) : Tx Bool := do
  let updated ← updateClones (Clone.isPageHeldBy claim)
    (Clone.updatePages (SitePage.isHeldBy claim) (SitePage.extend now))
  pure (decide (updated = 1))

/-- The page that ended without a bundle. -/
def SitePage.finish (status : PageStatus) (code : String) (page : SitePage) : SitePage :=
  { page.release with status := status, failureCode := some code }

/-- The page whose bundle is stored. -/
def SitePage.succeed (now : Instant) (bundle : StoredObject) (inputBytes : ℕ) (page : SitePage) :
    SitePage :=
  { page.release with
    status := .succeeded
    bundle := some bundle
    bundleState := some .available
    bundleDeleteAfter := some now
    inputBytes := inputBytes
    failureCode := none }

/-- `completePage`: whether the bundle was accepted. -/
def completePage (now : Instant) (claim : ClaimedSitePage) (bundle : StoredObject)
    (inputBytes : ℕ) : Tx Bool := do
  let s ← get
  require (s.clones.any (Clone.isPageHeldBy claim) = true) .staleSitePageLease
  let c ← selectClone claim.jobId .siteJobNotFound
  if c.job.status = .cancelRequested then do
    let _ ← updateClones (Clone.isPageHeldBy claim)
      (Clone.updatePages (SitePage.isHeldBy claim) (SitePage.finish .cancelled "CANCELLED"))
    pure false
  else if c.job.inputBytes + inputBytes > c.job.policy.maxInputBytes then do
    let _ ← updateClones (Clone.isPageHeldBy claim)
      (Clone.updatePages (SitePage.isHeldBy claim)
        (SitePage.finish .failed "SITE_INPUT_BUDGET_EXCEEDED"))
    incrementJob now claim.jobId false 0
    pure false
  else do
    require (0 < bundle.bytes ∧ 0 < inputBytes) .checkViolation
    let _ ← updateClones (Clone.isPageHeldBy claim)
      (Clone.updatePages (SitePage.isHeldBy claim) (SitePage.succeed now bundle inputBytes))
    incrementJob now claim.jobId true inputBytes
    pure true

/-- The page whose attempt failed. -/
def SitePage.fail (now : Instant) (claim : ClaimedSitePage) (code : String) (page : SitePage) :
    SitePage :=
  if claim.attemptCount < claim.maxRetries then
    { page.release with
      status := .queued
      availableAt := now + min 30 (2 ^ claim.attemptCount) * second
      failureCode := some code }
  else { page.release with status := .failed, failureCode := some code }

/-- `failPage`, with a bounded code. -/
def failPage (now : Instant) (claim : ClaimedSitePage) (code : String) : Tx Unit := do
  let updated ← updateClones (Clone.isPageHeldBy claim)
    (Clone.updatePages (SitePage.isHeldBy claim) (SitePage.fail now claim code))
  if updated ≠ 0 ∧ ¬ claim.attemptCount < claim.maxRetries then
    incrementJob now claim.jobId false 0
  else pure ()

/-! ### Assembly -/

/-- Whether some page of the clone is queued or rendering. -/
def Clone.hasActivePage (c : Clone) : Bool :=
  c.pages.any fun page ↦ page.status.isActive

/-- Whether every page of the clone ended and none succeeded. -/
def Clone.isEmpty (c : Clone) : Bool :=
  decide (c.job.status = .running) && c.job.ingestionFinishedAt.isSome &&
    decide (c.job.succeededCount = 0) && !c.hasActivePage

/-- The clone without a page to assemble. -/
def Clone.failEmpty (now : Instant) (c : Clone) : Clone :=
  { c with
    job := { c.job with
      status := .failed
      terminalCode := some "ALL_PAGES_FAILED"
      terminalMessage := some "Every cloneable page failed."
      updatedAt := now } }

/-- `finalizeEmptyJobs`, for one job. -/
def finalizeEmptyJob (now : Instant) (id : Uuid) : Tx Unit := do
  updateClone id (Clone.failEmpty now)
  enqueueEvent now id .failed

/-- `finalizeEmptyJobs`. -/
def finalizeEmptyJobs (now : Instant) (locked : List Uuid) : Tx Unit := do
  let s ← get
  ((s.clones.filter fun c ↦ c.isEmpty && decide (c.job.id ∉ locked)).map fun c ↦ c.job.id).forM
    (finalizeEmptyJob now)

/-- The jobs that other transactions hold locked during a claim of an assembly. -/
structure AssemblyLocks where
  empty : List Uuid := []
  candidates : List Uuid := []

/-- Whether a worker may claim the assembly of the clone. -/
def Clone.isAssemblable (now : Instant) (c : Clone) : Bool :=
  (decide (c.job.status = .running) || decide (c.job.status = .assembling)) &&
    c.job.ingestionFinishedAt.isSome && c.job.isPhaseFree now &&
    decide (0 < c.job.succeededCount) && !c.hasActivePage

/-- `claimAssembly`. -/
def claimAssembly (now : Instant) (locks : AssemblyLocks) (workerId : Uuid) :
    Tx (Option ClaimedSitePhase) := do
  finalizeEmptyJobs now locks.empty
  let s ← get
  let candidate := Table.firstBy (fun c ↦ [(c.job.updatedAt : ℤ), c.job.id])
    (s.clones.filter fun c ↦ c.isAssemblable now && decide (c.job.id ∉ locks.candidates))
  match candidate with
  | none => pure none
  | some c =>
    updateClone c.job.id (Clone.leasePhase now workerId (5 * minute) .assembling)
    enqueueEvent now c.job.id .assembling
    pure (some ((c.leasePhase now workerId (5 * minute) .assembling).job.phase workerId))

/-- The bytes of the artifacts. -/
def totalBytes (artifacts : List SiteArtifactInput) : ℕ :=
  (artifacts.map fun artifact ↦ artifact.object.bytes).sum

/-- The row of an artifact that is staged for a claim. -/
def stagedArtifact (now : Instant) (id : Uuid) (claim : ClaimedSitePhase)
    (artifact : SiteArtifactInput) : SiteArtifact where
  id := id
  ownerId := claim.ownerId
  kind := artifact.kind
  generation := claim.leaseGeneration
  shardNumber := artifact.shardNumber
  logicalFilename := artifact.logicalFilename
  object := artifact.object
  createdAt := now
  deleteAfter := now + day

/-- Whether the row is the artifact of a generation that an input names. -/
def SiteArtifact.isFor (generation : ℕ) (input : SiteArtifactInput) (row : SiteArtifact) : Bool :=
  decide (row.generation = generation) && decide (row.kind = input.kind) &&
    decide (row.shardNumber = input.shardNumber)

/-- `insert … on conflict do nothing`, for one artifact. -/
def insertArtifact (now : Instant) (claim : ClaimedSitePhase) (artifact : SiteArtifactInput) :
    Tx Unit := do
  let id ← newUuid
  let c ← selectClone claim.id .siteJobNotFound
  if c.artifacts.any (SiteArtifact.isFor claim.leaseGeneration artifact) then pure ()
  else do
    let s ← get
    require (∀ c ∈ s.clones, ∀ row ∈ c.artifacts, row.object.key ≠ artifact.object.key)
      .uniqueViolation
    updateClone claim.id fun c ↦
      { c with artifacts := c.artifacts ++ [stagedArtifact now id claim artifact] }

/-- Whether the row is staged as the input says. -/
def SiteArtifact.matches (input : SiteArtifactInput) (row : SiteArtifact) : Bool :=
  decide (row.state = .staged) && decide (row.logicalFilename = input.logicalFilename) &&
    decide (row.object = input.object)

/-- Whether the artifacts of a generation are the inputs, all of them staged. -/
def Clone.isStaged (generation : ℕ) (artifacts : List SiteArtifactInput) (c : Clone) : Bool :=
  let staged := c.artifacts.filter fun row ↦ decide (row.generation = generation)
  decide (staged.length = artifacts.length) &&
    artifacts.all fun input ↦ match staged.find? (SiteArtifact.isFor generation input) with
      | some row => row.matches input
      | none => false

/-- `stageArtifacts`. -/
def stageArtifacts (now : Instant) (claim : ClaimedSitePhase)
    (artifacts : List SiteArtifactInput) : Tx Unit := do
  require (artifacts ≠ []) .siteArtifactsEmpty
  let s ← get
  require (s.clones.any (Clone.isPhaseLeasedBy now .assembling claim) = true)
    .staleSiteAssemblyLease
  require (totalBytes artifacts ≤ claim.policy.maxArchiveBytes) .siteArchiveBudgetExceeded
  artifacts.forM (insertArtifact now claim)
  let c ← selectClone claim.id .siteJobNotFound
  require (c.isStaged claim.leaseGeneration artifacts = true) .siteArtifactStageMismatch

/-- Whether the row is staged in the generation. -/
def SiteArtifact.isStagedIn (generation : ℕ) (row : SiteArtifact) : Bool :=
  decide (row.generation = generation) && decide (row.state = .staged)

/-- The artifact that is kept for its retention. -/
def SiteArtifact.publish (now : Instant) (retentionDays : ℕ) (row : SiteArtifact) : SiteArtifact :=
  { row with state := .published, deleteAfter := now + retentionDays * day }

/-- How a clone ends that is published: whether a page failed or was cancelled. -/
def Clone.terminalStatus (c : Clone) : JobStatus :=
  if 0 < c.job.failedCount ∨ 0 < c.pages.countP (fun page ↦
      decide (page.status = .cancelled) && decide (page.failureCode = some "CANCELLED")) then
    .partialArchive
  else .published

/-- The clone that is published. -/
def Clone.publish (now : Instant) (claim : ClaimedSitePhase)
    (artifacts : List SiteArtifactInput) (c : Clone) : Clone :=
  let published := c.updateArtifacts (SiteArtifact.isStagedIn claim.leaseGeneration)
    (SiteArtifact.publish now claim.policy.archiveRetentionDays)
  { published with
    job := { c.job.releasePhase with
      status := c.terminalStatus
      archiveBytes := totalBytes artifacts
      artifactCount := artifacts.length
      updatedAt := now } }

/-- The second transaction of `publishArtifacts`, after it has staged the artifacts. -/
def publishStaged (now : Instant) (claim : ClaimedSitePhase)
    (artifacts : List SiteArtifactInput) : Tx Unit := do
  let s ← get
  let c ← found (s.clones.find? (Clone.isPhaseLeasedBy now .assembling claim))
    .staleSiteAssemblyLease
  require (totalBytes artifacts ≤ claim.policy.maxArchiveBytes) .siteArchiveBudgetExceeded
  updateClone claim.id (Clone.publish now claim artifacts)
  enqueueEvent now claim.id c.terminalStatus

/-! ### Retries of phases -/

/-- The clone whose phase failed. -/
def Clone.retryPhase (now : Instant) (claim : ClaimedSitePhase) (code : String) (c : Clone) :
    Clone :=
  if claim.attemptCount ≥ 3 then
    { c with
      job := { c.job.releasePhase with
        status := .failed
        terminalCode := some code
        terminalMessage := some "Site clone phase exhausted its retry budget."
        updatedAt := now } }
  else
    { c with
      job := { c.job.releasePhase with
        phaseAttemptCount := c.job.phaseAttemptCount + 1
        phaseAvailableAt := now + min 30 (2 ^ claim.attemptCount) * second
        terminalCode := some code
        updatedAt := now } }

/-- The artifact that nobody will publish. -/
def SiteArtifact.abandon (now : Instant) (row : SiteArtifact) : SiteArtifact :=
  { row with deleteAfter := max now (row.createdAt + 1) }

/-- `retryPhase`, with a bounded code. -/
def retryPhase (now : Instant) (claim : ClaimedSitePhase) (phase : JobStatus) (code : String) :
    Tx Unit := do
  let updated ← updateClones
    (fun c ↦ c.isPhaseHeldBy claim && decide (c.job.status = phase))
    fun c ↦ (c.retryPhase now claim code).updateArtifacts
      (SiteArtifact.isStagedIn claim.leaseGeneration) (SiteArtifact.abandon now)
  if updated ≠ 0 ∧ claim.attemptCount ≥ 3 then enqueueEvent now claim.id .failed
  else pure ()

/-! ### Cancellations and deadlines -/

/-- Whether the clone has used up its time. -/
def Clone.isOverdue (now : Instant) (c : Clone) : Bool :=
  c.job.status.isInProgress &&
    decide (c.job.createdAt + c.job.policy.maxDurationSeconds * second ≤ now)

/-- The clone that is cancelled because its time is used up. -/
def Clone.exceedDeadline (now : Instant) (c : Clone) : Clone :=
  { c with
    job := { c.job.releasePhase with
      status := .cancelRequested
      terminalCode := some "SITE_CLONE_DEADLINE_EXCEEDED"
      terminalMessage := some "Site clone exceeded its maximum execution time."
      updatedAt := now } }

/-- The clone whose queued pages are cancelled. -/
def Clone.cancelPages (c : Clone) : Clone :=
  c.updatePages (fun page ↦ decide (page.status = .queued))
    fun page ↦ { page with status := .cancelled, failureCode := some "CANCELLED" }

/-- Whether the cancellation of the clone can be carried out. -/
def Clone.isReconcilable (c : Clone) : Bool :=
  decide (c.job.status = .cancelRequested) && decide (c.pageCount .rendering = 0)

/-- Whether the clone was cancelled because its time was used up. -/
def SiteJob.exceededDeadline (job : SiteJob) : Bool :=
  decide (job.terminalCode = some "SITE_CLONE_DEADLINE_EXCEEDED")

/-- The clone whose cancellation is carried out, with its counters refreshed. -/
def Clone.reconcile (now : Instant) (c : Clone) : Clone :=
  { c with
    job := { c.job.releasePhase with
      status :=
        if 0 < c.job.succeededCount then .running
        else if c.job.exceededDeadline then .failed
        else .cancelled
      phaseAttemptCount := 0
      phaseAvailableAt := now
      terminalCode :=
        if c.job.exceededDeadline then c.job.terminalCode
        else if 0 < c.job.succeededCount then some "CANCELLED_PARTIAL"
        else some "CANCELLED"
      terminalMessage :=
        if c.job.exceededDeadline then c.job.terminalMessage
        else some "Site clone cancelled by the owner."
      updatedAt := now } }

/-- Carries out the cancellation of one job. -/
def reconcileJob (now : Instant) (id : Uuid) : Tx Unit := do
  updateClone id (Clone.refreshJobCounters now)
  updateClone id (Clone.reconcile now)
  let c ← selectClone id .siteJobNotFound
  if c.job.status = .cancelled ∨ c.job.status = .failed then enqueueEvent now id c.job.status
  else pure ()

/-- `reconcileCancellations`: the jobs that it has dealt with, and their owners. A job that the
first statement has changed is not locked by another transaction. -/
def reconcileCancellations (now : Instant) (locked : List Uuid) : Tx (List (Uuid × Uuid)) := do
  let s ← get
  let overdue := (s.clones.filter (Clone.isOverdue now)).map fun c ↦ c.job.id
  let _ ← updateClones (Clone.isOverdue now) (Clone.exceedDeadline now)
  let _ ← updateClones (fun c ↦ decide (c.job.status = .cancelRequested)) Clone.cancelPages
  let s ← get
  let jobs := s.clones.filter fun c ↦
    c.isReconcilable && (decide (c.job.id ∈ overdue) || decide (c.job.id ∉ locked))
  (jobs.map fun c ↦ c.job.id).forM (reconcileJob now)
  pure (jobs.map fun c ↦ (c.job.id, c.job.ownerId))

/-! ### Garbage collection -/

/-- `ClaimedSiteObjectDeletion`. -/
inductive ClaimedSiteObjectDeletion
  | artifact (jobId artifactId : Uuid) (object : StoredObject)
  | pageBundle (jobId pageId : Uuid) (object : StoredObject)
  deriving DecidableEq

/-- The object that the deletion is about. -/
def ClaimedSiteObjectDeletion.object : ClaimedSiteObjectDeletion → StoredObject
  | .artifact _ _ object => object
  | .pageBundle _ _ object => object

/-- The rows that other transactions hold locked during a claim of an object. -/
structure DeletionLocks where
  artifacts : List Uuid := []
  pages : List PageKey := []

/-- Whether the collector may claim the artifact. -/
def SiteArtifact.isDue (now : Instant) (row : SiteArtifact) : Bool :=
  decide (row.state ≠ .deleted) && decide (row.deleteAfter ≤ now)

/-- The artifact that the collector has claimed. -/
def SiteArtifact.claim (now : Instant) (row : SiteArtifact) : SiteArtifact :=
  { row with
    state := if row.state = .staged then .staged else .deletePending
    deleteAfter := now + 30 * second }

/-- The artifact that a claim takes: the one that is due longest. -/
def dueArtifact (now : Instant) (locked : List Uuid) (clones : List Clone) :
    Option (Clone × SiteArtifact) :=
  Table.firstBy (fun entry ↦ [(entry.2.deleteAfter : ℤ), entry.2.id])
    (clones.flatMap fun c ↦ ((c.artifacts.filter (SiteArtifact.isDue now)).filter fun row ↦
      decide (row.id ∉ locked)).map fun row ↦ (c, row))

/-- Whether the collector may claim the bundle of the page. -/
def Clone.isBundleDue (now : Instant) (c : Clone) (page : SitePage) : Bool :=
  c.job.status.isTerminal && decide (page.status = .succeeded) &&
    (decide (page.bundleState = some .available) ||
      decide (page.bundleState = some .deletePending)) &&
    expiredAt page.bundleDeleteAfter now

/-- The bundle that a claim takes: the one that is due longest. -/
def dueBundle (now : Instant) (locked : List PageKey) (clones : List Clone) :
    Option (Clone × SitePage) :=
  Table.firstBy
    (fun entry ↦ [((entry.2.bundleDeleteAfter.getD 0 : Instant) : ℤ), entry.1.job.id,
      entry.2.pageId])
    (clones.flatMap fun c ↦ ((c.pages.filter (c.isBundleDue now)).filter fun page ↦
      decide ((c.job.id, page.pageId) ∉ locked)).map fun page ↦ (c, page))

/-- The page whose bundle the collector has claimed. -/
def SitePage.claimBundle (now : Instant) (page : SitePage) : SitePage :=
  { page with
    bundleState := some .deletePending, bundleDeleteAfter := some (now + 30 * second) }

/-- `claimObjectForDeletion`. -/
def claimObjectForDeletion (now : Instant) (locks : DeletionLocks) :
    Tx (Option ClaimedSiteObjectDeletion) := do
  let s ← get
  match dueArtifact now locks.artifacts s.clones with
  | some (c, row) =>
    updateClone c.job.id
      (Clone.updateArtifacts (fun other ↦ decide (other.id = row.id)) (SiteArtifact.claim now))
    pure (some (.artifact c.job.id row.id row.object))
  | none =>
    match dueBundle now locks.pages s.clones with
    | some (c, page) =>
      updateClone c.job.id
        (Clone.updatePages (fun other ↦ decide (other.pageId = page.pageId))
          (SitePage.claimBundle now))
      let object ← found page.bundle .checkViolation
      pure (some (.pageBundle c.job.id page.pageId object))
    | none => pure none

/-- Whether the row is the artifact of a deletion that can be completed. -/
def SiteArtifact.isDeletable (artifactId : Uuid) (row : SiteArtifact) : Bool :=
  decide (row.id = artifactId) &&
    (decide (row.state = .staged) || decide (row.state = .deletePending))

/-- Whether some artifact of the clone is published or waits for its deletion. -/
def Clone.hasLiveArtifact (c : Clone) : Bool :=
  c.artifacts.any fun row ↦ decide (row.state = .published) || decide (row.state = .deletePending)

/-- The clone without the artifact. -/
def Clone.deleteArtifact (artifactId : Uuid) (c : Clone) : Clone :=
  c.updateArtifacts (SiteArtifact.isDeletable artifactId) fun row ↦ { row with state := .deleted }

/-- The clone all of whose artifacts are gone. -/
def Clone.expire (now : Instant) (c : Clone) : Clone :=
  { c with job := { c.job with status := .expired, updatedAt := now } }

/-- Whether the page waits for the deletion of its bundle. -/
def SitePage.isBundleDeletable (pageId : Uuid) (page : SitePage) : Bool :=
  decide (page.pageId = pageId) && decide (page.bundleState = some .deletePending)

/-- `completeObjectDeletion`. -/
def completeObjectDeletion (now : Instant) : ClaimedSiteObjectDeletion → Tx Unit
  | .artifact jobId artifactId _ => do
    let deleted ← updateClones
      (fun c ↦ c.hasId jobId && c.artifacts.any (SiteArtifact.isDeletable artifactId))
      (Clone.deleteArtifact artifactId)
    require (deleted ≠ 0) .staleSiteGcClaim
    let c ← selectClone jobId .siteJobNotFound
    if !c.hasLiveArtifact && c.job.status.isPublished then do
      updateClone jobId (Clone.expire now)
      enqueueEvent now jobId .expired
    else pure ()
  | .pageBundle jobId pageId _ => do
    let deleted ← updateClones
      (fun c ↦ c.hasId jobId && c.pages.any (SitePage.isBundleDeletable pageId))
      (Clone.updatePages (SitePage.isBundleDeletable pageId)
        fun page ↦ { page with bundleState := some .deleted, bundleDeleteAfter := some now })
    require (deleted ≠ 0) .staleSiteGcClaim

/-- `retryObjectDeletion`. -/
def retryObjectDeletion (now : Instant) : ClaimedSiteObjectDeletion → Tx Unit
  | .artifact jobId artifactId _ => do
    let _ ← updateClones (Clone.hasId jobId)
      (Clone.updateArtifacts (SiteArtifact.isDeletable artifactId)
        fun row ↦ { row with deleteAfter := now + minute })
    pure ()
  | .pageBundle jobId pageId _ => do
    let _ ← updateClones (Clone.hasId jobId)
      (Clone.updatePages (SitePage.isBundleDeletable pageId)
        fun page ↦ { page with bundleDeleteAfter := some (now + minute) })
    pure ()

end WebLens.SiteClone
