import WebLens.Capture.System

/-!
# What each operation does

One lemma for each transaction of the capture worker says what the database is after it, with what
the transaction checked on the way.
-/

set_option autoImplicit false
set_option relaxedAutoImplicit false

namespace WebLens.Capture

open Lib Lib.Utf8 Lib.Transaction

variable {env : Env} {s s' : Store} {now : Instant}

/-! ### Statements -/

@[simp]
theorem returns_newUuid {id : Uuid} :
    Returns newUuid s id s' ↔ id = s.nextUuid ∧ s' = { s with nextUuid := s.nextUuid + 1 } := by
  simp only [newUuid, returns_modifyGet, Prod.mk.injEq]
  exact and_congr eq_comm eq_comm

@[simp]
theorem returns_updateCaptureJobs {sel : CaptureJob → Bool} {set : CaptureJob → CaptureJob}
    {rows : ℕ} :
    Returns (updateCaptureJobs sel set) s rows s' ↔ rows = s.captureJobs.countP sel ∧
      s' = { s with captureJobs := Table.update sel set s.captureJobs } := by
  simp only [updateCaptureJobs, returns_modifyGet, Prod.mk.injEq]
  exact and_congr eq_comm eq_comm

@[simp]
theorem returns_updateReconstructionJobs {sel : ReconstructionJob → Bool}
    {set : ReconstructionJob → ReconstructionJob} {rows : ℕ} :
    Returns (updateReconstructionJobs sel set) s rows s' ↔
      rows = s.reconstructionJobs.countP sel ∧
        s' = { s with reconstructionJobs := Table.update sel set s.reconstructionJobs } := by
  simp only [updateReconstructionJobs, returns_modifyGet, Prod.mk.injEq]
  exact and_congr eq_comm eq_comm

@[simp]
theorem returns_updateArtifacts {sel : ReconstructionArtifact → Bool}
    {set : ReconstructionArtifact → ReconstructionArtifact} {rows : ℕ} :
    Returns (updateArtifacts sel set) s rows s' ↔ rows = s.artifacts.countP sel ∧
      s' = { s with artifacts := Table.update sel set s.artifacts } := by
  simp only [updateArtifacts, returns_modifyGet, Prod.mk.injEq]
  exact and_congr eq_comm eq_comm

@[simp]
theorem returns_updateAnalyticsOutbox {sel : AnalyticsRow → Bool}
    {set : AnalyticsRow → AnalyticsRow} {rows : ℕ} :
    Returns (updateAnalyticsOutbox sel set) s rows s' ↔ rows = s.analyticsOutbox.countP sel ∧
      s' = { s with analyticsOutbox := Table.update sel set s.analyticsOutbox } := by
  simp only [updateAnalyticsOutbox, returns_modifyGet, Prod.mk.injEq]
  exact and_congr eq_comm eq_comm

@[simp]
theorem returns_updateEventOutbox {sel : EventRow → Bool} {set : EventRow → EventRow} {u : Unit} :
    Returns (updateEventOutbox sel set) s u s' ↔
      s' = { s with eventOutbox := Table.update sel set s.eventOutbox } :=
  returns_modify

/-- The capture job with one more event. -/
def CaptureJob.bump (job : CaptureJob) : CaptureJob :=
  { job with eventVersion := job.eventVersion + 1 }

/-- The database after an event of a job. -/
def Store.withEvent (now : Instant) (job : CaptureJob) (ownerId correlationId : Uuid)
    (status : ProgressStatus) (counts : Counts) (terminalCode terminalMessage : Option String)
    (s : Store) : Store :=
  { s with
    captureJobs := Table.update (fun other ↦ decide (other.id = job.id)) CaptureJob.bump
      s.captureJobs
    eventOutbox := s.eventOutbox ++ [progressEvent now s.nextUuid job.id ownerId correlationId
      (job.eventVersion + 1) status counts terminalCode terminalMessage]
    nextUuid := s.nextUuid + 1 }

/-- An event is numbered by the version of its job. -/
theorem enqueueEvent_cases {jobId ownerId correlationId : Uuid} {status : ProgressStatus}
    {counts : Counts} {terminalCode terminalMessage : Option String} {u : Unit}
    (h : Returns (enqueueEvent now jobId ownerId correlationId status counts terminalCode
      terminalMessage) s u s') :
    ∃ job ∈ s.captureJobs, job.id = jobId ∧ s' = s.withEvent now job ownerId correlationId status
      counts terminalCode terminalMessage := by
  simp only [enqueueEvent, returns_bind, returns_updateCaptureJobs, returns_get, returns_found,
    returns_newUuid, returns_modify, exists_and_left, exists_eq_left, and_assoc] at h
  obtain ⟨job', hjob', rfl⟩ := h
  have hid : job'.id = jobId := by simpa using List.find?_some hjob'
  obtain ⟨job, hjob, heq⟩ := Table.mem_update.1 (List.mem_of_find?_eq_some hjob')
  by_cases hsel : job.id = jobId
  · simp only [hsel, decide_true, if_true] at heq
    subst hsel heq
    exact ⟨job, hjob, rfl, rfl⟩
  · simp only [hsel, decide_false, Bool.false_eq_true, if_false] at heq
    exact absurd (heq ▸ hid) hsel

/-! ### Commands -/

/-- The database after a command was accepted. -/
def Store.accepted (now : Instant) (hash : ByteString) (envelope : CaptureCommandEnvelope)
    (s : Store) : Store :=
  { s with
    captureJobs := s.captureJobs ++ [newCaptureJob now hash envelope]
    reconstructionJobs := s.reconstructionJobs ++ [newReconstructionJob s.nextUuid envelope]
    nextUuid := s.nextUuid + 1 }

/-- A command is a duplicate, or brings a job and its reconstruction. -/
theorem acceptCommand_cases {envelope : CaptureCommandEnvelope} {duplicate : Bool}
    (h : Returns (acceptCommand env now envelope) s duplicate s') :
    s' = s ∨ (∀ job ∈ s.captureJobs, job.id ≠ envelope.payload.captureRequestId) ∧
      s' = s.accepted now (env.sha256 (env.stringifyCommand envelope)) envelope := by
  simp only [acceptCommand, returns_bind, returns_get, exists_and_left, exists_eq_left,
    and_assoc] at h
  split at h
  · simp only [returns_bind, returns_require, returns_pure, and_assoc, exists_and_left,
      exists_eq_left, exists_const] at h
    exact .inl h.2.2
  · simp only [returns_bind, returns_require, returns_modify, returns_newUuid, returns_pure,
      and_assoc, exists_and_left, exists_eq_left, exists_const] at h
    exact .inr ⟨h.1, h.2.2⟩

/-! ### Claims -/

/-- The database after a job was claimed. -/
def Store.claimed (now : Instant) (workerId : Uuid) (job : CaptureJob) (s : Store) : Store :=
  { s with
    captureJobs := Table.update (fun other ↦ decide (other.id = job.id))
      (CaptureJob.claim now workerId) s.captureJobs }

/-- The database after its expired jobs were queued again. -/
def Store.requeued (now : Instant) (s : Store) : Store :=
  { s with
    captureJobs := Table.update (CaptureJob.isExpired now)
      (fun job ↦ job.requeue now job.terminalCode) s.captureJobs }

/-- The database after the reconstructions of a job were started. -/
def Store.reconstructionStarted (jobId : Uuid) (generation : ℕ) (s : Store) : Store :=
  { s with
    reconstructionJobs := Table.update (ReconstructionJob.isActiveOf jobId)
      (ReconstructionJob.start generation) s.reconstructionJobs }

/-- The database after the reconstructions of a job failed. -/
def Store.reconstructionFailed (jobId : Uuid) (s : Store) : Store :=
  { s with
    reconstructionJobs := Table.update (ReconstructionJob.isActiveOf jobId) ReconstructionJob.fail
      s.reconstructionJobs }

/-- The database after some jobs failed. -/
def Store.exhausted (ids : List Uuid) (s : Store) : Store :=
  { s with
    captureJobs := Table.update (fun job ↦ decide (job.id ∈ ids))
      (CaptureJob.fail "CAPTURE_RETRIES_EXHAUSTED" "Capture lease expired after bounded retries")
      s.captureJobs }

/-- The reconstructions and events of exhausted jobs, one after the other. -/
inductive Exhausts (now : Instant) : List CaptureJob → Store → Store → Prop
  | nil (s : Store) : Exhausts now [] s s
  | cons {s s' : Store} (job row : CaptureJob) (jobs : List CaptureJob)
      (hrow : row ∈ s.captureJobs) (hid : row.id = job.id)
      (hrest : Exhausts now jobs ((s.reconstructionFailed job.id).withEvent now row job.ownerId
        job.correlationId .failed {} (some "CAPTURE_RETRIES_EXHAUSTED")
        (some "Capture lease expired after bounded retries")) s') : Exhausts now (job :: jobs) s s'

theorem exhausts_of_returns {jobs : List CaptureJob} {u : Unit}
    (h : Returns (failExhausted now jobs) s u s') : Exhausts now jobs s s' := by
  induction jobs generalizing s with
  | nil =>
    simp only [failExhausted, returns_pure] at h
    rw [h.2]
    exact .nil s
  | cons job jobs ih =>
    simp only [failExhausted, returns_bind, returns_updateReconstructionJobs, exists_and_left,
      exists_eq_left, and_assoc] at h
    obtain ⟨_, s₂, hevent, hrest⟩ := h
    obtain ⟨row, hrow, hid, rfl⟩ := enqueueEvent_cases hevent
    exact .cons job row jobs hrow hid (ih hrest)

/-- A claim fails the exhausted jobs, queues the expired ones again, and takes a job if one
waits. -/
theorem claimJob_cases {locks : ClaimLocks} {workerId : Uuid} {result : Option ClaimedJob}
    (h : Returns (claimJob now locks workerId) s result s') :
    ∃ s₁, Exhausts now (exhaustedJobs now locks.expired s)
        (s.exhausted ((exhaustedJobs now locks.expired s).map CaptureJob.id)) s₁ ∧
      (result = none ∧ s' = s₁.requeued now ∨
        ∃ job, claimCandidate now locks.candidates (s₁.requeued now) = some job ∧
          result = some (job.claimed workerId) ∧
          ∃ row ∈ ((s₁.requeued now).claimed now workerId job).captureJobs, row.id = job.id ∧
            s' = (((s₁.requeued now).claimed now workerId job).withEvent now row job.ownerId
              job.correlationId .running {} none none).reconstructionStarted job.id
                (job.leaseGeneration + 1)) := by
  simp only [claimJob, returns_bind, returns_get, returns_updateCaptureJobs, exists_and_left,
    exists_eq_left, and_assoc] at h
  obtain ⟨_, s₁, hexhausted, h⟩ := h
  refine ⟨s₁, exhausts_of_returns hexhausted, ?_⟩
  split at h
  · simp only [returns_pure] at h
    exact .inl h
  · next job hjob =>
    simp only [returns_bind, returns_updateCaptureJobs, returns_updateReconstructionJobs,
      returns_pure, exists_and_left, exists_eq_left, and_assoc] at h
    obtain ⟨_, s₂, hevent, rfl, rfl⟩ := h
    obtain ⟨row, hrow, hid, rfl⟩ := enqueueEvent_cases hevent
    exact .inr ⟨job, hjob, rfl, row, hrow, hid, rfl⟩

/-- The job with a longer lease. -/
def CaptureJob.extend (now : Instant) (job : CaptureJob) : CaptureJob :=
  { job with leaseExpiresAt := some (now + 45 * second) }

/-- A heartbeat extends the lease of the job it holds. -/
theorem extendLease_cases {claim : ClaimedJob} {held : Bool}
    (h : Returns (extendLease now claim) s held s') :
    held = decide (s.captureJobs.countP (CaptureJob.isHeldBy claim) = 1) ∧
      s' = { s with
        captureJobs := Table.update (CaptureJob.isHeldBy claim) (CaptureJob.extend now)
          s.captureJobs } := by
  simp only [extendLease, returns_bind, returns_updateCaptureJobs, returns_pure, exists_and_left,
    exists_eq_left, and_assoc] at h
  exact h

/-! ### Results -/

/-- The artifact that a generation stages. -/
def stagedArtifact (now : Instant) (id reconstructionId ownerId : Uuid) (generation : ℕ)
    (kind : ArtifactKind) (logicalFilename : String) (object : StoredObject) :
    ReconstructionArtifact where
  id := id
  ownerId := ownerId
  reconstructionJobId := reconstructionId
  kind := kind
  generation := generation
  logicalFilename := logicalFilename
  object := object
  deleteAfter := now + hour

/-- The database with one more artifact. -/
def Store.withArtifact (s : Store) (artifact : ReconstructionArtifact) : Store :=
  { s with artifacts := s.artifacts ++ [artifact], nextUuid := s.nextUuid + 1 }

theorem insertStagedReconstructionArtifact_cases {reconstructionId ownerId : Uuid}
    {generation : ℕ} {kind : ArtifactKind} {logicalFilename : String} {object : StoredObject}
    {u : Unit} (h : Returns (insertStagedReconstructionArtifact now reconstructionId ownerId
      generation kind logicalFilename object) s u s') :
    ∃ artifact, artifact = stagedArtifact now s.nextUuid reconstructionId ownerId generation kind
        logicalFilename object ∧ artifact.check = true ∧
      (∀ other ∈ s.artifacts, artifact.collides other = false) ∧ s' = s.withArtifact artifact := by
  simp only [insertStagedReconstructionArtifact, returns_bind, returns_newUuid, returns_require,
    returns_get, returns_modify, exists_and_left, exists_eq_left, exists_const, and_assoc,
    List.all_eq_true, Bool.not_eq_true'] at h
  exact ⟨_, rfl, h.1, h.2.1, h.2.2⟩

/-- Artifacts are staged for a claim that holds its job. -/
theorem stageReconstructionArtifacts_cases {claim : ClaimedJob} {objects : ReconstructionObjects}
    {u : Unit} (h : Returns (stageReconstructionArtifacts now claim objects) s u s') :
    (∃ job ∈ s.captureJobs, job.isHeldBy claim = true) ∧
      ∃ reconstruction ∈ s.reconstructionJobs, reconstruction.runsFor claim = true ∧
        ∃ archive manifest,
          archive = stagedArtifact now s.nextUuid reconstruction.id claim.ownerId
            claim.leaseGeneration .staticArchive "weblens-static-clone.zip" objects.archive ∧
          manifest = stagedArtifact now (s.nextUuid + 1) reconstruction.id claim.ownerId
            claim.leaseGeneration .manifest "manifest.json" objects.manifest ∧
          archive.check = true ∧ manifest.check = true ∧
          (∀ other ∈ s.artifacts, archive.collides other = false) ∧
          (∀ other ∈ s.artifacts ++ [archive], manifest.collides other = false) ∧
          s' = (s.withArtifact archive).withArtifact manifest := by
  simp only [stageReconstructionArtifacts, returns_bind, returns_get, returns_require,
    returns_found, exists_and_left, exists_eq_left, exists_const, and_assoc,
    List.any_eq_true] at h
  obtain ⟨hheld, reconstruction, hfound, _, s₁, hfirst, hsecond⟩ := h
  obtain ⟨archive, harchive, hcheck, hcollides, rfl⟩ :=
    insertStagedReconstructionArtifact_cases hfirst
  obtain ⟨manifest, hmanifest, hcheck', hcollides', rfl⟩ :=
    insertStagedReconstructionArtifact_cases hsecond
  exact ⟨hheld, reconstruction, List.mem_of_find?_eq_some hfound, List.find?_some hfound, archive,
    manifest, harchive, hmanifest, hcheck, hcheck', hcollides, hcollides', rfl⟩

/-- The database after the artifacts of a generation were published. -/
def Store.artifactsPublished (now : Instant) (claim : ClaimedJob) (reconstructionId : Uuid)
    (s : Store) : Store :=
  { s with
    artifacts := Table.update
      (ReconstructionArtifact.isStagedFor reconstructionId claim.ownerId claim.leaseGeneration)
      (ReconstructionArtifact.publish now) s.artifacts }

/-- The number of artifacts staged for a generation. -/
def Store.stagedCount (reconstructionId ownerId : Uuid) (generation : ℕ) (s : Store) : ℕ :=
  s.artifacts.countP (ReconstructionArtifact.isStagedFor reconstructionId ownerId generation)

/-- Artifacts are published when both are staged, for a build that did not fail. -/
theorem publishArtifacts_cases {claim : ClaimedJob} {reconstructionId : Uuid} {staging : Staging}
    {published : Bool} (h : Returns (publishArtifacts now claim reconstructionId staging) s
      published s') :
    published = false ∧ s' = s ∨
      staging.result.reconstruction.status ≠ .failed ∧
        (∃ objects, staging.reconstruction = some objects ∧
          (s.artifacts.countP fun artifact ↦
            artifact.isStagedFor reconstructionId claim.ownerId claim.leaseGeneration &&
              artifact.isOneOf now objects) = 2) ∧
        published =
          decide (s.stagedCount reconstructionId claim.ownerId claim.leaseGeneration = 2) ∧
        s' = s.artifactsPublished now claim reconstructionId := by
  unfold publishArtifacts at h
  split at h
  · simp only [returns_pure] at h
    exact .inl h
  · next objects hobjects =>
    dsimp only at h
    split_ifs at h with hbuild
    · simp only [returns_bind, returns_get, exists_and_left, exists_eq_left, and_assoc] at h
      split_ifs at h with hcount
      · simp only [returns_bind, returns_updateArtifacts, returns_pure, exists_and_left,
          exists_eq_left, and_assoc] at h
        exact .inr ⟨hbuild.1, ⟨objects, hobjects, hcount⟩, h⟩
      · simp only [returns_pure] at h
        exact .inl h
    · simp only [returns_pure] at h
      exact .inl h

/-- The database after a reconstruction ended. -/
def Store.reconstructionFinished (claim : ClaimedJob) (reconstructionId snapshotId : Uuid)
    (artifactsPublished : Bool) (staging : Staging) (s : Store) : Store :=
  { s with
    reconstructionJobs := Table.update (fun job ↦ decide (job.id = reconstructionId) &&
        decide (job.status = .running) &&
        decide (job.sourceLeaseGeneration = some claim.leaseGeneration))
      (ReconstructionJob.finish snapshotId artifactsPublished staging) s.reconstructionJobs }

/-- How a result ends the reconstruction that runs for the claim, if there is one. -/
inductive Finishes (now : Instant) (claim : ClaimedJob) (snapshotId : Uuid) (staging : Staging)
    (s : Store) : Store → Prop
  | absent (hnone : ∀ job ∈ s.reconstructionJobs, job.runsFor claim = false) :
      Finishes now claim snapshotId staging s s
  | unpublished (reconstruction : ReconstructionJob) (hmem : reconstruction ∈ s.reconstructionJobs)
      (hruns : reconstruction.runsFor claim = true) :
      Finishes now claim snapshotId staging s
        (s.reconstructionFinished claim reconstruction.id snapshotId false staging)
  | published (reconstruction : ReconstructionJob) (objects : ReconstructionObjects)
      (hmem : reconstruction ∈ s.reconstructionJobs) (hruns : reconstruction.runsFor claim = true)
      (hobjects : staging.reconstruction = some objects)
      (hbuild : staging.result.reconstruction.status ≠ .failed)
      (hready : (s.artifacts.countP fun artifact ↦
        artifact.isStagedFor reconstruction.id claim.ownerId claim.leaseGeneration &&
          artifact.isOneOf now objects) = 2) :
      Finishes now claim snapshotId staging s
        ((s.artifactsPublished now claim reconstruction.id).reconstructionFinished claim
          reconstruction.id snapshotId
          (decide (s.stagedCount reconstruction.id claim.ownerId claim.leaseGeneration = 2))
          staging)

theorem finishReconstruction_cases {claim : ClaimedJob} {snapshotId : Uuid} {staging : Staging}
    {u : Unit} (h : Returns (finishReconstruction now claim snapshotId staging) s u s') :
    Finishes now claim snapshotId staging s s' := by
  simp only [finishReconstruction, returns_bind, returns_get, exists_and_left, exists_eq_left,
    and_assoc] at h
  split at h
  · next hnone =>
    simp only [returns_pure] at h
    rw [h.2]
    apply Finishes.absent
    intro job hjob
    simpa using List.find?_eq_none.1 hnone job hjob
  · next reconstruction hfound =>
    simp only [returns_bind, returns_require, returns_updateReconstructionJobs, exists_and_left,
      exists_eq_left, exists_const, and_assoc] at h
    obtain ⟨published, s₁, hpublished, -, -, rfl⟩ := h
    have hmem := List.mem_of_find?_eq_some hfound
    have hruns := List.find?_some hfound
    rcases publishArtifacts_cases hpublished with ⟨rfl, rfl⟩ | ⟨hbuild, ⟨objects, hobjects, hready⟩,
      rfl, rfl⟩
    · exact .unpublished reconstruction hmem hruns
    · exact .published reconstruction objects hmem hruns hobjects hbuild hready

theorem Finishes.analyticsOutbox_eq {claim : ClaimedJob} {snapshotId : Uuid} {staging : Staging}
    (h : Finishes now claim snapshotId staging s s') : s'.analyticsOutbox = s.analyticsOutbox := by
  cases h <;> rfl

/-- Inserting references touches their table only. -/
theorem insertObjectReferences_cases {jobId : Uuid} {items : List ResourceObject} {ordinal : ℕ}
    {u : Unit} (h : Returns (insertObjectReferences now jobId ordinal items) s u s') :
    ∃ references next, s.nextUuid ≤ next ∧
      s' = { s with objectReferences := references, nextUuid := next } := by
  induction items generalizing s ordinal with
  | nil =>
    simp only [insertObjectReferences, returns_pure] at h
    exact ⟨s.objectReferences, s.nextUuid, le_refl _, h.2⟩
  | cons item items ih =>
    simp only [insertObjectReferences, returns_bind, returns_newUuid, returns_require,
      returns_get, returns_modify, exists_and_left, exists_eq_left, exists_const,
      and_assoc] at h
    obtain ⟨-, -, hrest⟩ := h
    obtain ⟨references, next, hnext, rfl⟩ := ih hrest
    exact ⟨references, next, (Nat.le_succ _).trans hnext, rfl⟩

/-- The analytics batch of a result. -/
def resultBatch (env : Env) (now : Instant) (claim : ClaimedJob) (staging : Staging)
    (batchId : Uuid) : AnalyticsRow :=
  let encoded := env.stringifyAnalytics (analyticsPayload env batchId claim staging)
  { id := batchId, captureJobId := claim.id, ownerId := claim.ownerId
    resultVersion := claim.leaseGeneration, payload := some encoded
    payloadSha256 := env.sha256 encoded, availableAt := now, createdAt := now }

/-- The database with the analytics batch of a result, and its job in persistence. -/
def Store.resultStored (env : Env) (now : Instant) (claim : ClaimedJob) (staging : Staging)
    (batchId : Uuid) (s : Store) : Store :=
  { s with
    captureJobs := Table.update (fun job ↦ decide (job.id = claim.id)) (CaptureJob.stage staging)
      s.captureJobs
    analyticsOutbox := s.analyticsOutbox ++ [resultBatch env now claim staging batchId] }

/-- A result is staged for a claim that holds its job. -/
theorem stageResult_cases {claim : ClaimedJob} {staging : Staging} {u : Unit}
    (h : Returns (stageResult env now claim staging) s u s') :
    (∃ job ∈ s.captureJobs, job.isHeldBy claim = true) ∧
      (∀ row ∈ s.analyticsOutbox, row.captureJobId ≠ claim.id) ∧
      (staging.result.network.length ≤ 500 ∧ staging.resources.length ≤ 100) ∧
      ∃ snapshots references next s₁, s.nextUuid + 2 ≤ next ∧
        Finishes now claim (s.nextUuid + 1) staging { s with
          snapshots := snapshots, objectReferences := references, nextUuid := next } s₁ ∧
        ∃ row ∈ (s₁.resultStored env now claim staging s.nextUuid).captureJobs,
          row.id = claim.id ∧
          s' = (s₁.resultStored env now claim staging s.nextUuid).withEvent now row claim.ownerId
            claim.correlationId .indexing
            { expected := staging.expected, published := 0, objectCount := staging.objectCount
              objectBytes := staging.objectBytes } none none := by
  simp only [stageResult, returns_bind, returns_newUuid, returns_require, returns_get,
    returns_modify, returns_updateCaptureJobs, exists_and_left, exists_eq_left, exists_const,
    and_assoc, List.any_eq_true] at h
  obtain ⟨-, hheld, hcheck, -, _, s₀, hreferences, _, s₁, hfinish, hnew, hevent⟩ := h
  simp only [PageSnapshot.check, Bool.and_eq_true, decide_eq_true_eq] at hcheck
  obtain ⟨references, next, hnext, rfl⟩ := insertObjectReferences_cases hreferences
  have hfinish := finishReconstruction_cases hfinish
  obtain ⟨row, hrow, hid, rfl⟩ := enqueueEvent_cases hevent
  rw [hfinish.analyticsOutbox_eq] at hnew
  exact ⟨hheld, hnew, hcheck.1, _, references, next, s₁, hnext, hfinish, row, hrow, hid, rfl⟩

/-! ### Failures -/

/-- The database after a job was queued again. -/
def Store.retried (jobId : Uuid) (availableAt : Instant) (code : String) (s : Store) : Store :=
  { s with
    captureJobs := Table.update (fun job ↦ decide (job.id = jobId))
      (CaptureJob.requeue availableAt (some code)) s.captureJobs }

/-- The database after a job failed. -/
def Store.failed (jobId : Uuid) (code : String) (s : Store) : Store :=
  { s with
    captureJobs := Table.update (fun job ↦ decide (job.id = jobId))
      (CaptureJob.fail code "Capture failed after bounded retries") s.captureJobs }

/-- A job that fails is queued again before its last attempt. -/
theorem failJob_cases {claim : ClaimedJob} {code : String} {u : Unit}
    (h : Returns (failJob now claim code) s u s') :
    s' = s ∨ ∃ job ∈ s.captureJobs, job.isHeldBy claim = true ∧
      (job.attemptCount < 3 ∧
          s' = s.retried claim.id (now + min 30 (2 ^ job.attemptCount) * second) code ∨
        ¬ job.attemptCount < 3 ∧ ∃ row ∈ (s.failed claim.id code).captureJobs, row.id = claim.id ∧
          s' = ((s.failed claim.id code).reconstructionFailed claim.id).withEvent now row
            claim.ownerId claim.correlationId .failed {} (some code)
            (some "Capture failed after bounded retries")) := by
  simp only [failJob, returns_bind, returns_get, exists_and_left, exists_eq_left,
    and_assoc] at h
  split at h
  · simp only [returns_pure] at h
    exact .inl h.2
  · next job hfound =>
    refine .inr ⟨job, List.mem_of_find?_eq_some hfound, List.find?_some hfound, ?_⟩
    split_ifs at h with hattempts
    · simp only [returns_bind, returns_updateCaptureJobs, returns_pure, exists_and_left,
        exists_eq_left, and_assoc] at h
      exact .inl ⟨hattempts, h.2⟩
    · simp only [returns_bind, returns_updateCaptureJobs, returns_updateReconstructionJobs,
        exists_and_left, exists_eq_left, and_assoc] at h
      obtain ⟨row, hrow, hid, rfl⟩ := enqueueEvent_cases h
      exact .inr ⟨hattempts, row, hrow, hid, rfl⟩

/-! ### Analytics -/

/-- A change of the outbox of analytics batches that keeps which batches there are. -/
def Store.batchesMoved (sel : AnalyticsRow → Bool) (set : AnalyticsRow → AnalyticsRow) (s : Store) :
    Store :=
  { s with analyticsOutbox := Table.update sel set s.analyticsOutbox }

/-- A batch is claimed for delivery. -/
def AnalyticsRow.claim (now : Instant) (workerId : Uuid) (row : AnalyticsRow) : AnalyticsRow :=
  { row with
    status := .claimed
    leaseOwner := some workerId
    leaseExpiresAt := some (now + 30 * second)
    deliveryAttempts := row.deliveryAttempts + 1 }

/-- A batch is delivered. -/
def AnalyticsRow.deliver (row : AnalyticsRow) : AnalyticsRow :=
  { row with status := .delivered, payload := none, leaseOwner := none, leaseExpiresAt := none }

/-- A batch waits for another delivery. -/
def AnalyticsRow.retry (env : Env) (now : Instant) (row : AnalyticsRow) : AnalyticsRow :=
  { row with
    status := retryStatus row.deliveryAttempts
    availableAt := retryAt env now row.id row.deliveryAttempts
    leaseOwner := none
    leaseExpiresAt := none }

theorem claimAnalytics_cases {locked : List Uuid} {workerId : Uuid} {result : Option ClaimedOutbox}
    (h : Returns (claimAnalytics now locked workerId) s result s') :
    result = none ∧ s' = s ∨ ∃ row ∈ s.analyticsOutbox,
      isDue now row.status row.availableAt row.leaseExpiresAt = true ∧
      result = some { id := row.id, jobId := row.captureJobId, ownerId := row.ownerId
                      payload := row.payload, payloadSha256 := row.payloadSha256
                      leaseOwner := workerId } ∧
      s' = s.batchesMoved (fun other ↦ decide (other.id = row.id))
        (AnalyticsRow.claim now workerId) := by
  simp only [claimAnalytics, returns_bind, returns_get, exists_and_left, exists_eq_left,
    and_assoc] at h
  split at h
  · simp only [returns_pure] at h
    exact .inl h
  · next row hrow =>
    have hmem := List.mem_filter.1 (Table.firstBy_mem hrow)
    simp only [Bool.and_eq_true] at hmem
    simp only [returns_bind, returns_updateAnalyticsOutbox, returns_pure, exists_and_left,
      exists_eq_left, and_assoc] at h
    exact .inr ⟨row, hmem.1, hmem.2.1, h⟩

/-- The job whose batch was delivered. -/
def CaptureJob.complete (job : CaptureJob) : CaptureJob :=
  { job with status := .completed, analyticsPublishedCount := job.analyticsExpectedCount }

/-- The database after the batch of a job was delivered. -/
def Store.completed (outbox : ClaimedOutbox) (s : Store) : Store :=
  { s.batchesMoved (AnalyticsRow.isClaimedBy outbox) AnalyticsRow.deliver with
    captureJobs := Table.update
      (fun job ↦ decide (job.id = outbox.jobId) && decide (job.status = .persisting))
      CaptureJob.complete s.captureJobs }

/-- A delivered batch completes its job. -/
theorem completeAnalytics_cases {outbox : ClaimedOutbox} {u : Unit}
    (h : Returns (completeAnalytics now outbox) s u s') :
    (∃ row ∈ s.analyticsOutbox, row.isClaimedBy outbox = true) ∧
      ∃ job, s.captureJobs.find? (fun job ↦ decide (job.id = outbox.jobId) &&
          decide (job.status = .persisting)) = some job ∧
        ∃ row ∈ (s.completed outbox).captureJobs, row.id = outbox.jobId ∧
          s' = (s.completed outbox).withEvent now row job.ownerId job.correlationId .completed
            { expected := job.analyticsExpectedCount, published := job.analyticsExpectedCount
              objectCount := job.objectCount, objectBytes := job.totalObjectBytes } none none := by
  simp only [completeAnalytics, returns_bind, returns_updateAnalyticsOutbox, returns_require,
    returns_get, returns_found, returns_updateCaptureJobs, exists_and_left, exists_eq_left,
    exists_const, and_assoc] at h
  obtain ⟨hrows, job, hfound, hevent⟩ := h
  obtain ⟨row, hrow, hid, rfl⟩ := enqueueEvent_cases hevent
  refine ⟨?_, job, hfound, row, hrow, hid, rfl⟩
  simpa using List.countP_pos_iff.1 (Nat.pos_of_ne_zero hrows)

theorem retryAnalytics_cases {outbox : ClaimedOutbox} {u : Unit}
    (h : Returns (retryAnalytics env now outbox) s u s') :
    s' = s.batchesMoved (AnalyticsRow.isClaimedBy outbox) (AnalyticsRow.retry env now) := by
  simp only [retryAnalytics, returns_bind, returns_updateAnalyticsOutbox, returns_pure,
    exists_and_left, exists_eq_left, and_assoc] at h
  exact h.2

/-! ### Events -/

/-- A change of the outbox of events that keeps which events there are. -/
def Store.eventsMoved (sel : EventRow → Bool) (set : EventRow → EventRow) (s : Store) : Store :=
  { s with eventOutbox := Table.update sel set s.eventOutbox }

/-- An event is claimed for delivery. -/
def EventRow.claim (now : Instant) (workerId : Uuid) (row : EventRow) : EventRow :=
  { row with
    status := .claimed
    leaseOwner := some workerId
    leaseExpiresAt := some (now + 30 * second)
    deliveryAttempts := row.deliveryAttempts + 1 }

/-- An event is delivered. -/
def EventRow.deliver (row : EventRow) : EventRow :=
  { row with status := .delivered, leaseOwner := none, leaseExpiresAt := none }

/-- An event waits for another delivery. -/
def EventRow.retry (env : Env) (now : Instant) (row : EventRow) : EventRow :=
  { row with
    status := retryStatus row.deliveryAttempts
    availableAt := retryAt env now row.messageId row.deliveryAttempts
    leaseOwner := none
    leaseExpiresAt := none }

theorem claimEvent_cases {locked : List Uuid} {workerId : Uuid} {result : Option ClaimedEvent}
    (h : Returns (claimEvent now locked workerId) s result s') :
    result = none ∧ s' = s ∨ ∃ row ∈ s.eventOutbox,
      result = some { messageId := row.messageId, payload := row.payload, leaseOwner := workerId } ∧
      s' = s.eventsMoved (fun other ↦ decide (other.messageId = row.messageId))
        (EventRow.claim now workerId) := by
  simp only [claimEvent, returns_bind, returns_get, exists_and_left, exists_eq_left,
    and_assoc] at h
  split at h
  · simp only [returns_pure] at h
    exact .inl h
  · next row hrow =>
    have hmem := List.mem_filter.1 (Table.firstBy_mem hrow)
    simp only [returns_bind, returns_updateEventOutbox, returns_pure, exists_and_left,
      exists_eq_left, exists_const] at h
    exact .inr ⟨row, hmem.1, h⟩

theorem completeEvent_cases {event : ClaimedEvent} {u : Unit}
    (h : Returns (completeEvent event) s u s') :
    s' = s.eventsMoved (EventRow.isClaimedBy event) EventRow.deliver :=
  returns_updateEventOutbox.1 h

theorem retryEvent_cases {event : ClaimedEvent} {u : Unit}
    (h : Returns (retryEvent env now event) s u s') :
    s' = s.eventsMoved (EventRow.isClaimedBy event) (EventRow.retry env now) :=
  returns_updateEventOutbox.1 h

/-! ### Garbage collection -/

/-- The database after a change of its artifacts. -/
def Store.artifactsMoved (sel : ReconstructionArtifact → Bool)
    (set : ReconstructionArtifact → ReconstructionArtifact) (s : Store) : Store :=
  { s with artifacts := Table.update sel set s.artifacts }

/-- An artifact is claimed for deletion. A staged one stays staged. -/
def ReconstructionArtifact.claim (now : Instant) (artifact : ReconstructionArtifact) :
    ReconstructionArtifact :=
  { artifact with
    state := if artifact.state = .staged then .staged else .deletePending
    deleteAfter := now + 30 * second }

/-- An artifact is deleted. -/
def ReconstructionArtifact.delete (artifact : ReconstructionArtifact) : ReconstructionArtifact :=
  { artifact with state := .deleted }

/-- The deletion of an artifact is put off. -/
def ReconstructionArtifact.postpone (now : Instant) (artifact : ReconstructionArtifact) :
    ReconstructionArtifact :=
  { artifact with deleteAfter := now + minute }

theorem claimReconstructionArtifactForDeletion_cases {locked : List Uuid}
    {result : Option ClaimedReconstructionArtifact}
    (h : Returns (claimReconstructionArtifactForDeletion now locked) s result s') :
    result = none ∧ s' = s ∨ ∃ artifact ∈ s.artifacts, artifact.state ≠ .deleted ∧
      artifact.deleteAfter ≤ now ∧
      result = some { id := artifact.id, reconstructionId := artifact.reconstructionJobId
                      kind := artifact.kind, object := artifact.object } ∧
      s' = s.artifactsMoved (fun other ↦ decide (other.id = artifact.id))
        (ReconstructionArtifact.claim now) := by
  simp only [claimReconstructionArtifactForDeletion, returns_bind, returns_get, exists_and_left,
    exists_eq_left, and_assoc] at h
  split at h
  · simp only [returns_pure] at h
    exact .inl h
  · next artifact hartifact =>
    have hmem := List.mem_filter.1 (Table.firstBy_mem hartifact)
    simp only [Bool.and_eq_true, decide_eq_true_eq] at hmem
    simp only [returns_bind, returns_updateArtifacts, returns_pure, exists_and_left,
      exists_eq_left, and_assoc] at h
    exact .inr ⟨artifact, hmem.1, hmem.2.1.1, hmem.2.1.2, h⟩

/-- The database after the reconstruction of a deleted archive expired. -/
def Store.reconstructionExpired (claimed : ClaimedReconstructionArtifact) (s : Store) : Store :=
  if claimed.kind = .staticArchive then
    { s with
      reconstructionJobs := Table.update
        (fun job ↦ decide (job.id = claimed.reconstructionId) && job.status.isPublished)
        ReconstructionJob.expire s.reconstructionJobs }
  else s

/-- A deleted archive, of whatever generation, expires its reconstruction. -/
theorem completeReconstructionArtifactDeletion_cases {claimed : ClaimedReconstructionArtifact}
    {u : Unit} (h : Returns (completeReconstructionArtifactDeletion claimed) s u s') :
    (∃ artifact ∈ s.artifacts, artifact.isClaimedAs claimed = true) ∧
      s' = (s.artifactsMoved (ReconstructionArtifact.isClaimedAs claimed)
        ReconstructionArtifact.delete).reconstructionExpired claimed := by
  simp only [completeReconstructionArtifactDeletion, returns_bind, returns_updateArtifacts,
    returns_require, exists_and_left, exists_eq_left, exists_const, and_assoc] at h
  obtain ⟨hrows, h⟩ := h
  refine ⟨by simpa using List.countP_pos_iff.1 (Nat.pos_of_ne_zero hrows), ?_⟩
  unfold Store.reconstructionExpired
  split_ifs at h ⊢
  · simp only [returns_bind, returns_updateReconstructionJobs, returns_pure, exists_and_left,
      exists_eq_left, and_assoc] at h
    exact h.2
  · simp only [returns_pure] at h
    exact h.2

theorem retryReconstructionArtifactDeletion_cases {claimed : ClaimedReconstructionArtifact}
    {u : Unit} (h : Returns (retryReconstructionArtifactDeletion now claimed) s u s') :
    s' = s.artifactsMoved (ReconstructionArtifact.isClaimedAs claimed)
      (ReconstructionArtifact.postpone now) := by
  simp only [retryReconstructionArtifactDeletion, returns_bind, returns_updateArtifacts,
    returns_pure, exists_and_left, exists_eq_left, and_assoc] at h
  exact h.2

end WebLens.Capture
