import WebLens.SiteClone.Effects

/-!
# One site clone

A case is what the database, the object storage and the loops of the worker hold of one site clone:
its job with the rows that reference it, the claims that were given for it, its assemblies and its
objects. `CaseStep` says all that a step can do to a case. It is the state machine of a single
clone, and says nothing of other clones, of keys and of statements.
-/

set_option autoImplicit false
set_option relaxedAutoImplicit false

namespace WebLens.SiteClone

open Lib Lib.Utf8 Lib.Transaction
open Capture (Uuid Instant Duration minute)

/-! ### What a transaction makes of a clone -/

/-- The clone at the end of its ingestion. -/
def Clone.finishIngestion (now : Instant) (c : Clone) : Clone :=
  if c.pages.length = 0 then c.finishEmpty now else c.finishTargets now c.pages.length

/-- The status of the event at the end of an ingestion. -/
def Clone.ingestedStatus (c : Clone) : JobStatus :=
  if c.pages.length = 0 then .failed else .running

/-- `incrementJob`, on the clone: every hundredth page is reported. -/
def Clone.incrementJob (now : Instant) (messageId : Uuid) (succeeded : Bool) (inputBytes : ℕ)
    (c : Clone) : Clone :=
  let counted := c.increment now succeeded inputBytes
  if 0 < counted.job.processedCount ∧ counted.job.processedCount % 100 = 0 then
    counted.withEvent now messageId .running
  else counted

/-- The clone whose held page is changed. -/
def Clone.updateHeld (claim : ClaimedSitePage) (set : SitePage → SitePage) (c : Clone) : Clone :=
  c.updatePages (SitePage.isHeldBy claim) set

/-- The clone whose claimed page failed. -/
def Clone.failPage (now : Instant) (messageId : Uuid) (claim : ClaimedSitePage) (code : String)
    (c : Clone) : Clone :=
  let failed := c.updateHeld claim (SitePage.fail now claim code)
  if claim.attemptCount < claim.maxRetries then failed
  else failed.incrementJob now messageId false 0

/-- The clone whose phase failed, with its staged artifacts abandoned. -/
def Clone.abandonPhase (now : Instant) (messageId : Uuid) (claim : ClaimedSitePhase)
    (code : String) (c : Clone) : Clone :=
  let retried := (c.retryPhase now claim code).updateArtifacts
    (SiteArtifact.isStagedIn claim.leaseGeneration) (SiteArtifact.abandon now)
  if claim.attemptCount ≥ 3 then retried.withEvent now messageId .failed else retried

/-- The clone as the first two statements of `reconcileCancellations` leave it. -/
def Clone.startReconcile (now : Instant) (c : Clone) : Clone :=
  let cancelled := if c.isOverdue now then c.exceedDeadline now else c
  if cancelled.job.status = .cancelRequested then cancelled.cancelPages else cancelled

/-- The clone whose cancellation is carried out and reported. -/
def Clone.finishReconcile (now : Instant) (messageId : Uuid) (c : Clone) : Clone :=
  let reconciled := (c.refreshJobCounters now).reconcile now
  if reconciled.job.status = .cancelled ∨ reconciled.job.status = .failed then
    reconciled.withEvent now messageId reconciled.job.status
  else reconciled

/-- The clone without the artifact, expired if it was the last one. -/
def Clone.finishDeletion (now : Instant) (messageId artifactId : Uuid) (c : Clone) : Clone :=
  let deleted := c.deleteArtifact artifactId
  if !deleted.hasLiveArtifact && deleted.job.status.isPublished then
    (deleted.expire now).withEvent now messageId .expired
  else deleted

/-! ### Cases -/

/-- The job that a deletion is about. -/
def ClaimedSiteObjectDeletion.jobId : ClaimedSiteObjectDeletion → Uuid
  | .artifact jobId _ _ => jobId
  | .pageBundle jobId _ _ => jobId

/-- The job that a key belongs to. -/
def StorageKey.jobId : StorageKey → Uuid
  | .pageBundle _ jobId _ _ => jobId
  | .artifact _ jobId _ _ => jobId

/-- What is held of one site clone. -/
structure Case where
  clone : Clone
  objects : List StorageKey := []
  phases : List ClaimedSitePhase := []
  pages : List ClaimedSitePage := []
  deletions : List ClaimedSiteObjectDeletion := []
  staged : List Assembly := []
  verified : List Assembly := []
  restaged : List Assembly := []

/-- The case of a clone of the system. -/
def System.case (sys : System) (c : Clone) : Case where
  clone := c
  objects := sys.objects.filter fun key ↦ decide (key.jobId = c.job.id)
  phases := sys.phases.filter fun claim ↦ decide (claim.id = c.job.id)
  pages := sys.pages.filter fun claim ↦ decide (claim.jobId = c.job.id)
  deletions := sys.deletions.filter fun deletion ↦ decide (deletion.jobId = c.job.id)
  staged := sys.staged.filter fun assembly ↦ decide (assembly.claim.id = c.job.id)
  verified := sys.verified.filter fun assembly ↦ decide (assembly.claim.id = c.job.id)
  restaged := sys.restaged.filter fun assembly ↦ decide (assembly.claim.id = c.job.id)

/-- The case with another version of its clone. -/
def Case.set (c : Case) (clone : Clone) : Case :=
  { c with clone := clone }

/-- The case of a clone whose phase a worker leases. -/
def Case.claimPhase (workerId : Uuid) (leased clone : Clone) (c : Case) : Case :=
  { c with clone := clone, phases := leased.job.phase workerId :: c.phases }

/-- The rows that a transaction stages for an assembly. -/
structure IsStagedRow (now : Instant) (assembly : Assembly) (row : SiteArtifact) : Prop where
  generation : row.generation = assembly.claim.leaseGeneration
  state : row.state = .staged
  createdAt : row.createdAt = now
  deleteAfter : row.deleteAfter = now + Capture.day
  part : ∃ part ∈ assembly.parts, row.object = (assembly.claim.artifact part).object

/-- What staging the artifacts of an assembly makes of a clone. -/
structure Stages (now : Instant) (assembly : Assembly) (c c' : Clone) : Prop where
  leased : c.isPhaseLeasedBy now .assembling assembly.claim = true
  staged : c'.isStaged assembly.claim.leaseGeneration assembly.artifacts = true
  rows : ∃ added, c' = { c with artifacts := c.artifacts ++ added } ∧
    (∀ row ∈ added, IsStagedRow now assembly row) ∧
    (added.map fun row ↦ row.object.key).Nodup ∧
    ∀ row ∈ c.artifacts, ∀ other ∈ added, row.object.key ≠ other.object.key

/-- What a step can do to a case, at an instant. -/
inductive CaseStep (env : Env) (now : Instant) : Action → Case → Case → Prop
  | same (action : Action) (c : Case) : CaseStep env now action c c
  | cancelled {envelope : SiteCloneCancelEnvelope} {c : Case}
      (hid : c.clone.job.id = envelope.aggregateId)
      (hstatus : c.clone.job.status.isTerminal = false) :
      CaseStep env now (.acceptCommand (.cancelRequested envelope)) c
        (c.set (c.clone.requestCancellation now))
  | ingestionClaimed {locked : List Uuid} {workerId : Uuid} {c : Case}
      (h : c.clone.isIngestible now = true) :
      CaseStep env now (.claimIngestion locked workerId) c
        (c.claimPhase workerId (c.clone.leasePhase now workerId minute .ingesting)
          (c.clone.leasePhase now workerId minute .ingesting))
  | phaseExtended {claim : ClaimedSitePhase} {c : Case} (hheld : c.clone.isPhaseHeldBy claim = true)
      (hstatus : c.clone.job.status = .ingesting ∨ c.clone.job.status = .assembling) :
      CaseStep env now (.extendPhaseLease claim) c (c.set (c.clone.extendPhase now))
  | targetsAdded {claim : ClaimedSitePhase} {targets : List SiteTargetInput} {c : Case}
      (hlease : c.clone.isPhaseLeasedBy now .ingesting claim = true) :
      CaseStep env now (.addTargets claim targets) c (c.set (c.clone.addTargets now targets))
  | ingestionFinished {claim : ClaimedSitePhase} {c : Case} (messageId : Uuid)
      (hheld : c.clone.isPhaseHeldBy claim = true) (hstatus : c.clone.job.status = .ingesting) :
      CaseStep env now (.finishIngestion claim) c
        (c.set ((c.clone.finishIngestion now).withEvent now messageId c.clone.ingestedStatus))
  | pagesReclaimed {locks : PageLocks} {workerId : Uuid} {c : Case} (keys : List PageKey) :
      CaseStep env now (.claimPage locks workerId) c (c.set (c.clone.reclaim now keys))
  | pageClaimed {locks : PageLocks} {workerId : Uuid} {c : Case} {d : Clone} {page : SitePage}
      (hd : d = c.clone ∨ ∃ keys, d = c.clone.reclaim now keys) (hpage : page ∈ d.pages)
      (h : d.isClaimable now page = true) :
      CaseStep env now (.claimPage locks workerId) c
        { c with
          clone := d.claimPage now workerId page.pageId
          pages := d.claimedPage workerId page :: c.pages }
  | pageExtended {claim : ClaimedSitePage} {c : Case} (hheld : c.clone.isPageHeldBy claim = true) :
      CaseStep env now (.extendPageLease claim) c
        (c.set (c.clone.updateHeld claim (SitePage.extend now)))
  | bundlePut {claim : ClaimedSitePage} {c : Case} (hclaim : claim ∈ c.pages) :
      CaseStep env now (.putBundle claim) c { c with objects := claim.bundleKey :: c.objects }
  | pageCancelled {claim : ClaimedSitePage} {bucket : String} {bytes : ℕ} {sha256 : ByteString}
      {inputBytes : ℕ} {c : Case} (hheld : c.clone.isPageHeldBy claim = true)
      (hstatus : c.clone.job.status = .cancelRequested) :
      CaseStep env now (.completePage claim bucket bytes sha256 inputBytes) c
        (c.set (c.clone.updateHeld claim (SitePage.finish .cancelled "CANCELLED")))
  | pageOverBudget {claim : ClaimedSitePage} {bucket : String} {bytes : ℕ} {sha256 : ByteString}
      {inputBytes : ℕ} {c : Case} (messageId : Uuid) (hheld : c.clone.isPageHeldBy claim = true)
      (hstatus : c.clone.job.status ≠ .cancelRequested)
      (hbudget : c.clone.job.policy.maxInputBytes < c.clone.job.inputBytes + inputBytes) :
      CaseStep env now (.completePage claim bucket bytes sha256 inputBytes) c
        (c.set ((c.clone.updateHeld claim
          (SitePage.finish .failed "SITE_INPUT_BUDGET_EXCEEDED")).incrementJob now messageId
            false 0))
  | pageCompleted {claim : ClaimedSitePage} {bucket : String} {bytes : ℕ} {sha256 : ByteString}
      {inputBytes : ℕ} {c : Case} (messageId : Uuid) (hheld : c.clone.isPageHeldBy claim = true)
      (hstatus : c.clone.job.status ≠ .cancelRequested)
      (hbudget : c.clone.job.inputBytes + inputBytes ≤ c.clone.job.policy.maxInputBytes) :
      CaseStep env now (.completePage claim bucket bytes sha256 inputBytes) c
        (c.set ((c.clone.updateHeld claim
          (SitePage.succeed now (claim.bundle bucket bytes sha256) inputBytes)).incrementJob now
            messageId true inputBytes))
  | pageFailed {claim : ClaimedSitePage} {code : String} {c : Case} (messageId : Uuid)
      (hclaim : claim ∈ c.pages) (hheld : c.clone.isPageHeldBy claim = true) :
      CaseStep env now (.failPage claim code) c
        (c.set (c.clone.failPage now messageId claim (boundedCode env code)))
  | emptyFailed {locks : AssemblyLocks} {workerId : Uuid} {c : Case} (messageId : Uuid)
      (h : c.clone.isEmpty = true) :
      CaseStep env now (.claimAssembly locks workerId) c
        (c.set ((c.clone.failEmpty now).withEvent now messageId .failed))
  | assemblyClaimed {locks : AssemblyLocks} {workerId : Uuid} {c : Case} (messageId : Uuid)
      (h : c.clone.isAssemblable now = true) :
      CaseStep env now (.claimAssembly locks workerId) c
        (c.claimPhase workerId (c.clone.leasePhase now workerId (5 * minute) .assembling)
          ((c.clone.leasePhase now workerId (5 * minute) .assembling).withEvent now messageId
            .assembling))
  | staged {assembly : Assembly} {c : Case} {clone : Clone}
      (hclaim : assembly.claim ∈ c.phases)
      (honly : ∀ other ∈ c.staged, other.claim = assembly.claim → other = assembly)
      (h : Stages now assembly c.clone clone) :
      CaseStep env now (.stageArtifacts assembly) c
        { c with clone := clone, staged := assembly :: c.staged }
  | copied {assembly : Assembly} {key : StorageKey} {c : Case} (hstaged : assembly ∈ c.staged)
      (hkey : key ∈ assembly.keys) :
      CaseStep env now (.copyArtifact assembly key) c { c with objects := key :: c.objects }
  | verified {assembly : Assembly} {c : Case} (hstaged : assembly ∈ c.staged)
      (hkeys : ∀ key ∈ assembly.keys, key ∈ c.objects) :
      CaseStep env now (.verifyArtifacts assembly) c { c with verified := assembly :: c.verified }
  | restaged {assembly : Assembly} {c : Case} {clone : Clone} (hverified : assembly ∈ c.verified)
      (h : Stages now assembly c.clone clone) :
      CaseStep env now (.restageArtifacts assembly) c
        { c with clone := clone, restaged := assembly :: c.restaged }
  | published {assembly : Assembly} {c : Case} (messageId : Uuid)
      (hrestaged : assembly ∈ c.restaged)
      (hlease : c.clone.isPhaseLeasedBy now .assembling assembly.claim = true)
      (hbudget : totalBytes assembly.artifacts ≤ assembly.claim.policy.maxArchiveBytes) :
      CaseStep env now (.publishArtifacts assembly) c
        (c.set ((c.clone.publish now assembly.claim assembly.artifacts).withEvent now messageId
          c.clone.terminalStatus))
  | ingestionRetried {claim : ClaimedSitePhase} {code : String} {c : Case} (messageId : Uuid)
      (hheld : c.clone.isPhaseHeldBy claim = true) (hstatus : c.clone.job.status = .ingesting) :
      CaseStep env now (.retryIngestion claim code) c
        (c.set (c.clone.abandonPhase now messageId claim (boundedCode env code)))
  | assemblyRetried {claim : ClaimedSitePhase} {code : String} {c : Case} (messageId : Uuid)
      (hheld : c.clone.isPhaseHeldBy claim = true) (hstatus : c.clone.job.status = .assembling) :
      CaseStep env now (.retryAssembly claim code) c
        (c.set (c.clone.abandonPhase now messageId claim (boundedCode env code)))
  | reconcileStarted {locked : List Uuid} {c : Case}
      (h : (c.clone.startReconcile now).isReconcilable = false ∨
        c.clone.isOverdue now = false) :
      CaseStep env now (.reconcileCancellations locked) c (c.set (c.clone.startReconcile now))
  | reconciled {locked : List Uuid} {c : Case} (messageId : Uuid)
      (h : (c.clone.startReconcile now).isReconcilable = true) :
      CaseStep env now (.reconcileCancellations locked) c
        (c.set ((c.clone.startReconcile now).finishReconcile now messageId))
  | artifactClaimed {locks : DeletionLocks} {c : Case} {row : SiteArtifact}
      (hrow : row ∈ c.clone.artifacts) (hdue : row.isDue now = true) :
      CaseStep env now (.claimObjectForDeletion locks) c
        { c with
          clone := c.clone.updateArtifacts (fun other ↦ decide (other.id = row.id))
            (SiteArtifact.claim now)
          deletions := .artifact c.clone.job.id row.id row.object :: c.deletions }
  | bundleClaimed {locks : DeletionLocks} {c : Case} {page : SitePage} {object : StoredObject}
      (hpage : page ∈ c.clone.pages) (hdue : c.clone.isBundleDue now page = true)
      (hobject : page.bundle = some object) :
      CaseStep env now (.claimObjectForDeletion locks) c
        { c with
          clone := c.clone.updatePages (fun other ↦ decide (other.pageId = page.pageId))
            (SitePage.claimBundle now)
          deletions := .pageBundle c.clone.job.id page.pageId object :: c.deletions }
  | objectDeleted {deletion : ClaimedSiteObjectDeletion} {c : Case}
      (hheld : deletion ∈ c.deletions) :
      CaseStep env now (.deleteObject deletion) c
        { c with objects := c.objects.filter fun key ↦ decide (key ≠ deletion.object.key) }
  | artifactDeleted {artifactId : Uuid} {object : StoredObject} {c : Case} (messageId : Uuid)
      (hheld : .artifact c.clone.job.id artifactId object ∈ c.deletions)
      (hrow : c.clone.artifacts.any (SiteArtifact.isDeletable artifactId) = true) :
      CaseStep env now (.completeObjectDeletion (.artifact c.clone.job.id artifactId object)) c
        (c.set (c.clone.finishDeletion now messageId artifactId))
  | bundleDeleted {pageId : Uuid} {object : StoredObject} {c : Case}
      (hheld : .pageBundle c.clone.job.id pageId object ∈ c.deletions) :
      CaseStep env now (.completeObjectDeletion (.pageBundle c.clone.job.id pageId object)) c
        (c.set (c.clone.updatePages (SitePage.isBundleDeletable pageId)
          fun page ↦ { page with bundleState := some .deleted, bundleDeleteAfter := some now }))
  | artifactPostponed {artifactId : Uuid} {object : StoredObject} {c : Case}
      (hheld : .artifact c.clone.job.id artifactId object ∈ c.deletions) :
      CaseStep env now (.retryObjectDeletion (.artifact c.clone.job.id artifactId object)) c
        (c.set (c.clone.updateArtifacts (SiteArtifact.isDeletable artifactId)
          fun row ↦ { row with deleteAfter := now + minute }))
  | bundlePostponed {pageId : Uuid} {object : StoredObject} {c : Case}
      (hheld : .pageBundle c.clone.job.id pageId object ∈ c.deletions) :
      CaseStep env now (.retryObjectDeletion (.pageBundle c.clone.job.id pageId object)) c
        (c.set (c.clone.updatePages (SitePage.isBundleDeletable pageId)
          fun page ↦ { page with bundleDeleteAfter := some (now + minute) }))

end WebLens.SiteClone
