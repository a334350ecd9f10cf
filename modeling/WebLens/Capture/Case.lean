import WebLens.Capture.Keys

/-!
# One capture

A case is what the tables and the loops of the capture worker hold of one capture request: its job,
its reconstruction, the artifacts of that, the analytics batches, the events, and the claims that
were given. `CaseStep` says all that a transaction can do to a case. It is the state machine of a
single capture, and says nothing of tables, keys and statements.
-/

set_option autoImplicit false
set_option relaxedAutoImplicit false

namespace WebLens.Capture

open Lib Lib.Utf8 Lib.Transaction

/-- What is stored of one capture request. -/
structure Case where
  job : CaptureJob
  reconstruction : ReconstructionJob
  artifacts : List ReconstructionArtifact
  batches : List Uuid
  events : List CaptureEventEnvelope
  claims : List ClaimedJob

namespace Case

/-- The case with one more event. -/
def withEvent (now : Instant) (messageId ownerId correlationId : Uuid) (status : ProgressStatus)
    (counts : Counts) (terminalCode terminalMessage : Option String) (c : Case) : Case :=
  { c with
    job := c.job.bump
    events := c.events ++ [(progressEvent now messageId c.job.id ownerId correlationId
      (c.job.eventVersion + 1) status counts terminalCode terminalMessage).payload] }

/-- The case whose active reconstruction, if it has one, fails. -/
def failReconstruction (c : Case) : Case :=
  { c with
    reconstruction :=
      if c.reconstruction.status.isActive then c.reconstruction.fail else c.reconstruction }

/-- The case whose lease expired on its last attempt. -/
def exhaust (now : Instant) (messageId : Uuid) (c : Case) : Case :=
  let failed := { c with
    job := c.job.fail "CAPTURE_RETRIES_EXHAUSTED" "Capture lease expired after bounded retries" }
  failed.failReconstruction.withEvent now messageId c.job.ownerId c.job.correlationId .failed {}
    (some "CAPTURE_RETRIES_EXHAUSTED") (some "Capture lease expired after bounded retries")

/-- The case whose lease expired before its last attempt. -/
def requeue (now : Instant) (c : Case) : Case :=
  { c with job := c.job.requeue now c.job.terminalCode }

/-- The case that a worker claimed. -/
def claim (now : Instant) (workerId messageId : Uuid) (c : Case) : Case :=
  let claimed := { c with
    job := c.job.claim now workerId
    claims := c.job.claimed workerId :: c.claims }
  let started := claimed.withEvent now messageId c.job.ownerId c.job.correlationId .running {} none
    none
  { started with
    reconstruction := if c.reconstruction.status.isActive
      then c.reconstruction.start (c.job.leaseGeneration + 1) else c.reconstruction }

/-- The case whose job has a longer lease. -/
def extend (now : Instant) (c : Case) : Case :=
  { c with job := c.job.extend now }

/-- The case whose archive and manifest were staged. -/
def stageArtifacts (now : Instant) (claim : ClaimedJob) (objects : ReconstructionObjects)
    (archiveId manifestId : Uuid) (c : Case) : Case :=
  { c with
    artifacts := c.artifacts ++ [
      stagedArtifact now archiveId c.reconstruction.id claim.ownerId claim.leaseGeneration
        .staticArchive "weblens-static-clone.zip" objects.archive,
      stagedArtifact now manifestId c.reconstruction.id claim.ownerId claim.leaseGeneration
        .manifest "manifest.json" objects.manifest] }

/-- The artifacts of the case that are staged for a claim. -/
def staged (claim : ClaimedJob) (c : Case) : List ReconstructionArtifact :=
  c.artifacts.filter
    (ReconstructionArtifact.isStagedFor c.reconstruction.id claim.ownerId claim.leaseGeneration)

/-- The case whose staged artifacts were published. -/
def publish (now : Instant) (claim : ClaimedJob) (c : Case) : Case :=
  { c with
    artifacts := Table.update
      (ReconstructionArtifact.isStagedFor c.reconstruction.id claim.ownerId claim.leaseGeneration)
      (ReconstructionArtifact.publish now) c.artifacts }

/-- The case whose reconstruction ended. -/
def finish (snapshotId : Uuid) (artifactsPublished : Bool) (staging : Staging) (c : Case) : Case :=
  { c with reconstruction := c.reconstruction.finish snapshotId artifactsPublished staging }

/-- The case whose result was stored. -/
def store (now : Instant) (claim : ClaimedJob) (staging : Staging) (batchId messageId : Uuid)
    (c : Case) : Case :=
  let stored := { c with
    job := c.job.stage staging
    batches := c.batches ++ [batchId] }
  stored.withEvent now messageId claim.ownerId claim.correlationId .indexing
    { expected := staging.expected, published := 0, objectCount := staging.objectCount
      objectBytes := staging.objectBytes } none none

/-- The case that waits for another attempt. -/
def retry (availableAt : Instant) (code : String) (c : Case) : Case :=
  { c with job := c.job.requeue availableAt (some code) }

/-- The case that failed on its last attempt. -/
def fail (now : Instant) (claim : ClaimedJob) (messageId : Uuid) (code : String) (c : Case) :
    Case :=
  let failed := { c with job := c.job.fail code "Capture failed after bounded retries" }
  failed.failReconstruction.withEvent now messageId claim.ownerId claim.correlationId .failed {}
    (some code) (some "Capture failed after bounded retries")

/-- The case whose batch was delivered. -/
def complete (now : Instant) (messageId : Uuid) (c : Case) : Case :=
  let completed := { c with job := c.job.complete }
  completed.withEvent now messageId c.job.ownerId c.job.correlationId .completed
    { expected := c.job.analyticsExpectedCount, published := c.job.analyticsExpectedCount
      objectCount := c.job.objectCount, objectBytes := c.job.totalObjectBytes } none none

/-- The case with one of its artifacts changed. -/
def moveArtifact (sel : ReconstructionArtifact → Bool)
    (set : ReconstructionArtifact → ReconstructionArtifact) (c : Case) : Case :=
  { c with artifacts := Table.update sel set c.artifacts }

/-- The case whose archive, if it was one, was deleted. -/
def expire (claimed : ClaimedReconstructionArtifact) (c : Case) : Case :=
  if claimed.kind = .staticArchive ∧ c.reconstruction.status.isPublished = true then
    { c with reconstruction := c.reconstruction.expire }
  else c

end Case

/-- How a result ends the reconstruction of a case. -/
inductive CaseFinish (now : Instant) (claim : ClaimedJob) (snapshotId : Uuid) (staging : Staging)
    (c : Case) : Case → Prop
  | absent (h : c.reconstruction.runsFor claim = false) :
      CaseFinish now claim snapshotId staging c c
  | unpublished (h : c.reconstruction.runsFor claim = true) :
      CaseFinish now claim snapshotId staging c (c.finish snapshotId false staging)
  | published (objects : ReconstructionObjects) (h : c.reconstruction.runsFor claim = true)
      (hobjects : staging.reconstruction = some objects)
      (hbuild : staging.result.reconstruction.status ≠ .failed)
      (hready : (c.staged claim).countP (ReconstructionArtifact.isOneOf now objects) = 2) :
      CaseFinish now claim snapshotId staging c
        ((c.publish now claim).finish snapshotId (decide ((c.staged claim).length = 2)) staging)

/-- Everything that a transaction can do to a case. -/
inductive CaseStep (env : Env) : Action → Case → Case → Prop
  | same (action : Action) (c : Case) : CaseStep env action c c
  | exhausted {now : Instant} {locks : ClaimLocks} {workerId : Uuid} {c : Case} (messageId : Uuid)
      (h : c.job.isExhausted now = true) :
      CaseStep env (.claimJob now locks workerId) c (c.exhaust now messageId)
  | requeued {now : Instant} {locks : ClaimLocks} {workerId : Uuid} {c : Case}
      (h : c.job.isExpired now = true) :
      CaseStep env (.claimJob now locks workerId) c (c.requeue now)
  | claimed {now : Instant} {locks : ClaimLocks} {workerId : Uuid} {c : Case} (messageId : Uuid)
      (h : c.job.isAvailable now = true) :
      CaseStep env (.claimJob now locks workerId) c (c.claim now workerId messageId)
  | reclaimed {now : Instant} {locks : ClaimLocks} {workerId : Uuid} {c : Case} (messageId : Uuid)
      (h : c.job.isExpired now = true) :
      CaseStep env (.claimJob now locks workerId) c ((c.requeue now).claim now workerId messageId)
  | extended {now : Instant} {claim : ClaimedJob} {c : Case}
      (hheld : c.job.isHeldBy claim = true) :
      CaseStep env (.extendLease now claim) c (c.extend now)
  | artifactsStaged {now : Instant} {claim : ClaimedJob} {objects : ReconstructionObjects}
      {c : Case} (archiveId manifestId : Uuid) (hheld : c.job.isHeldBy claim = true)
      (hruns : c.reconstruction.runsFor claim = true)
      (hfresh : ∀ artifact ∈ c.artifacts, artifact.generation ≠ claim.leaseGeneration) :
      CaseStep env (.stageReconstructionArtifacts now claim objects) c
        (c.stageArtifacts now claim objects archiveId manifestId)
  | resultStaged {now : Instant} {claim : ClaimedJob} {staging : Staging} {c c' : Case}
      (snapshotId batchId messageId : Uuid) (hclaim : claim ∈ c.claims)
      (hheld : c.job.isHeldBy claim = true) (hbatches : c.batches = [])
      (hlimits : staging.result.network.length ≤ 500 ∧ staging.resources.length ≤ 100)
      (hfinish : CaseFinish now claim snapshotId staging c c') :
      CaseStep env (.stageResult now claim staging) c
        (c'.store now claim staging batchId messageId)
  | retried {now : Instant} {claim : ClaimedJob} {error : String} {c : Case}
      (availableAt : Instant) (hheld : c.job.isHeldBy claim = true)
      (hattempts : c.job.attemptCount < 3) :
      CaseStep env (.failJob now claim error) c (c.retry availableAt (boundedErrorCode env error))
  | failed {now : Instant} {claim : ClaimedJob} {error : String} {c : Case} (messageId : Uuid)
      (hclaim : claim ∈ c.claims) (hheld : c.job.isHeldBy claim = true) (hattempts : ¬ c.job.attemptCount < 3) :
      CaseStep env (.failJob now claim error) c
        (c.fail now claim messageId (boundedErrorCode env error))
  | completed {now : Instant} {outbox : ClaimedOutbox} {c : Case} (messageId : Uuid)
      (h : c.job.status = .persisting) :
      CaseStep env (.completeAnalytics now outbox) c (c.complete now messageId)
  | artifactClaimed {now : Instant} {locked : List Uuid} {c : Case}
      (artifact : ReconstructionArtifact) (hmem : artifact ∈ c.artifacts)
      (hids : ∀ other ∈ c.artifacts, other.id = artifact.id → other = artifact)
      (hstate : artifact.state ≠ .deleted) (hdue : artifact.deleteAfter ≤ now) :
      CaseStep env (.claimReconstructionArtifactForDeletion now locked) c
        (c.moveArtifact (fun other ↦ decide (other.id = artifact.id))
          (ReconstructionArtifact.claim now))
  | artifactDeleted {claimed : ClaimedReconstructionArtifact} {c : Case}
      (artifact : ReconstructionArtifact) (hmem : artifact ∈ c.artifacts)
      (hids : ∀ other ∈ c.artifacts, other.id = artifact.id → other = artifact)
      (hclaimed : artifact.isClaimedAs claimed = true) (hkind : artifact.kind = claimed.kind) :
      CaseStep env (.completeReconstructionArtifactDeletion claimed) c
        ((c.moveArtifact (ReconstructionArtifact.isClaimedAs claimed)
          ReconstructionArtifact.delete).expire claimed)
  | artifactPostponed {now : Instant} {claimed : ClaimedReconstructionArtifact} {c : Case} :
      CaseStep env (.retryReconstructionArtifactDeletion now claimed) c
        (c.moveArtifact (ReconstructionArtifact.isClaimedAs claimed)
          (ReconstructionArtifact.postpone now))

end WebLens.Capture
