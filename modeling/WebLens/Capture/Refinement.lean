import WebLens.Capture.Shows

/-!
# The tables refine the cases

Every transaction keeps the keys, and leaves each case as it was or takes one step of it. A command
that is accepted starts a new case.
-/

set_option autoImplicit false
set_option relaxedAutoImplicit false

namespace WebLens.Capture

open Lib Lib.Utf8 Lib.Transaction

variable {env : Env} {s s' : Store} {id : Uuid} {c : Case} {now : Instant}

/-- The claims of a case after a claim may have been given. -/
def claimsAfter (id : Uuid) (result : Option ClaimedJob) (claims : List ClaimedJob) :
    List ClaimedJob :=
  match result with
  | some claim => if claim.id = id then claim :: claims else claims
  | none => claims

/-- The claim that a worker comes back with. -/
def Action.claim? : Action → Option ClaimedJob
  | .extendLease _ claim | .stageReconstructionArtifacts _ claim _ | .stageResult _ claim _
  | .failJob _ claim _ => some claim
  | _ => none

/-- The jobs of a store, by their identifiers. -/
def Store.jobIds (s : Store) : List Uuid :=
  s.captureJobs.map CaptureJob.id

theorem Store.jobIds_update (s : Store) (sel : CaptureJob → Bool) (set : CaptureJob → CaptureJob)
    (hset : ∀ job, (set job).id = job.id) :
    Store.jobIds { s with captureJobs := Table.update sel set s.captureJobs } = s.jobIds :=
  Table.map_update _ fun job _ _ ↦ hset job

theorem Store.jobIds_withEvent (s : Store) (row : CaptureJob) (ownerId correlationId : Uuid)
    (status : ProgressStatus) (counts : Counts) (terminalCode terminalMessage : Option String) :
    (s.withEvent now row ownerId correlationId status counts terminalCode terminalMessage).jobIds =
      s.jobIds :=
  Table.map_update _ fun _ _ _ ↦ rfl

/-- The keys are kept, every case takes a step, and a new case is that of a command. -/
structure Refines (env : Env) (action : Action) (given : Option ClaimedJob) (s s' : Store) :
    Prop where
  keyed : s'.Keyed
  jobs : s'.jobIds = s.jobIds ∨ given = none ∧ ∃ now hash envelope,
    (∀ job ∈ s.captureJobs, job.id ≠ envelope.payload.captureRequestId) ∧
      s' = s.accepted now hash envelope
  step : ∀ {id c}, s.Shows id c → (∀ claim, action.claim? = some claim → claim.id = id →
    claim ∈ c.claims) → ∃ c', s'.Shows id c' ∧ CaseStep env action c c' ∧
      c'.claims = claimsAfter id given c.claims

theorem Refines.same {action : Action} (hkeyed : s.Keyed) : Refines env action none s s :=
  ⟨hkeyed, .inl rfl, fun {_ c} hshows _ ↦ ⟨c, hshows, .same _ c, rfl⟩⟩

/-- The reconstruction of a case fails with its job. -/
theorem Store.Shows.failReconstruction (hshows : s.Shows id c) :
    (s.reconstructionFailed id).Shows id c.failReconstruction := by
  have h := hshows.updateReconstructions (ReconstructionJob.isActiveOf id) ReconstructionJob.fail
    fun _ ↦ ⟨rfl, rfl⟩
  have hactive : c.reconstruction.isActiveOf id = c.reconstruction.status.isActive := by
    rw [ReconstructionJob.isActiveOf, decide_eq_true hshows.reconstruction_captureJobId,
      Bool.true_and]
  rw [hactive] at h
  exact h

/-- The reconstruction of another job fails. -/
theorem Store.Shows.failReconstruction_of_ne (hshows : s.Shows id c) {jobId : Uuid}
    (hid : jobId ≠ id) : (s.reconstructionFailed jobId).Shows id c := by
  refine hshows.updateReconstructions_of_not _ _ (fun _ ↦ ⟨rfl, rfl⟩) ?_
  simp [ReconstructionJob.isActiveOf, hshows.reconstruction_captureJobId, hid.symm]

/-! ### Leases and results -/

theorem refines_extendLease {claim : ClaimedJob} {held : Bool} (hkeyed : s.Keyed) (h : Returns (extendLease now claim) s held s') :
    Refines env (.extendLease now claim) none s s' := by
  obtain ⟨-, rfl⟩ := extendLease_cases h
  refine ⟨hkeyed.updateJobs _ _ fun _ ↦ rfl, .inl (s.jobIds_update _ _ fun _ ↦ rfl),
    fun {id c} hshows _ ↦ ?_⟩
  by_cases hheld : c.job.isHeldBy claim = true
  · exact ⟨_, hshows.updateJobs_of_sel _ _ (fun _ ↦ rfl) hheld, .extended hheld, rfl⟩
  · exact ⟨c, hshows.updateJobs_of_not _ _ (fun _ ↦ rfl) (Bool.eq_false_iff.2 hheld), .same _ c, rfl⟩

/-- A job that is held by a claim has the identifier of the claim. -/
theorem CaptureJob.id_of_isHeldBy {claim : ClaimedJob} {job : CaptureJob}
    (h : job.isHeldBy claim = true) : job.id = claim.id := by
  simp only [CaptureJob.isHeldBy, Bool.and_eq_true, decide_eq_true_eq] at h
  exact h.1.1.1

theorem ReconstructionJob.captureJobId_of_runsFor {claim : ClaimedJob} {job : ReconstructionJob}
    (h : job.runsFor claim = true) : job.captureJobId = claim.id := by
  simp only [ReconstructionJob.runsFor, Bool.and_eq_true, decide_eq_true_eq] at h
  exact h.1.1.1

/-- Artifacts of one reconstruction collide when they have the same kind and generation. -/
theorem ReconstructionArtifact.generation_ne_of_collides {artifact other : ReconstructionArtifact}
    (h : artifact.collides other = false)
    (hid : other.reconstructionJobId = artifact.reconstructionJobId)
    (hkind : other.kind = artifact.kind) : other.generation ≠ artifact.generation := by
  intro hgeneration
  simp [ReconstructionArtifact.collides, hid, hkind, hgeneration] at h

theorem refines_stageReconstructionArtifacts {claim : ClaimedJob} {objects : ReconstructionObjects}
    {u : Unit} (hkeyed : s.Keyed)
    (h : Returns (stageReconstructionArtifacts now claim objects) s u s') :
    Refines env (.stageReconstructionArtifacts now claim objects) none s s' := by
  obtain ⟨⟨job, hjob, hheld⟩, reconstruction, hmem, hruns, archive, manifest, harchive, hmanifest,
    -, -, hfirst, hsecond, rfl⟩ := stageReconstructionArtifacts_cases h
  have harchiveOf : archive.reconstructionJobId = reconstruction.id := by rw [harchive]; rfl
  have hmanifestOf : manifest.reconstructionJobId = reconstruction.id := by rw [hmanifest]; rfl
  have hmemId : reconstruction.id ∈ s.reconstructionJobs.map ReconstructionJob.id :=
    List.mem_map_of_mem hmem
  have hkeyed₁ : (s.withArtifact archive).Keyed :=
    hkeyed.withArtifact (by rw [harchive]; rfl) (harchiveOf ▸ hmemId)
  refine ⟨hkeyed₁.withArtifact (by rw [hmanifest]; rfl)
    (hmanifestOf ▸ hmemId), .inl rfl, fun {id c} hshows _ ↦ ?_⟩
  by_cases hid : claim.id = id
  · obtain rfl := hshows.eq_job hkeyed hjob ((CaptureJob.id_of_isHeldBy hheld).trans hid)
    obtain rfl := hshows.eq_reconstruction_of_job hkeyed hmem
      ((ReconstructionJob.captureJobId_of_runsFor hruns).trans hid)
    have hshows₂ := (hshows.withArtifact harchiveOf).withArtifact hmanifestOf
    refine ⟨c.stageArtifacts now claim objects s.nextUuid (s.nextUuid + 1), ?_, ?_, rfl⟩
    · rw [harchive, hmanifest, List.append_assoc] at hshows₂
      rw [harchive, hmanifest]
      exact hshows₂
    · refine .artifactsStaged s.nextUuid (s.nextUuid + 1) hheld hruns fun artifact hartifact ↦ ?_
      obtain ⟨hartifact, hof⟩ := hshows.mem_artifacts.1 hartifact
      cases hkind : artifact.kind with
      | staticArchive =>
        have hne := ReconstructionArtifact.generation_ne_of_collides (hfirst artifact hartifact)
          (hof.trans harchiveOf.symm) (hkind.trans (by rw [harchive]; rfl))
        rw [harchive] at hne
        exact hne
      | manifest =>
        have hne := ReconstructionArtifact.generation_ne_of_collides
          (hsecond artifact (List.mem_append_left _ hartifact)) (hof.trans hmanifestOf.symm)
          (hkind.trans (by rw [hmanifest]; rfl))
        rw [hmanifest] at hne
        exact hne
  · have hne : reconstruction.id ≠ c.reconstruction.id := by
      intro heq
      apply hid
      rw [← ReconstructionJob.captureJobId_of_runsFor hruns, hshows.eq_reconstruction hkeyed hmem heq]
      exact hshows.reconstruction_captureJobId
    refine ⟨c, ?_, .same _ c, rfl⟩
    exact (hshows.withArtifact_of_ne (harchiveOf.trans_ne hne)).withArtifact_of_ne
      (hmanifestOf.trans_ne hne)

/-- Artifacts that are staged for a claim are artifacts of the case. -/
theorem Store.Shows.countP_staged (hshows : s.Shows id c) (claim : ClaimedJob)
    (p : ReconstructionArtifact → Bool) :
    (s.artifacts.countP fun artifact ↦ artifact.isStagedFor c.reconstruction.id claim.ownerId
      claim.leaseGeneration && p artifact) = (c.staged claim).countP p := by
  rw [Case.staged, ← hshows.artifacts, List.filter_filter, List.countP_filter]
  refine List.countP_congr fun artifact _ ↦ ?_
  simp only [ReconstructionArtifact.isStagedFor, Bool.and_eq_true, decide_eq_true_eq]
  tauto

theorem Store.Shows.stagedCount_eq (hshows : s.Shows id c) (claim : ClaimedJob) :
    s.stagedCount c.reconstruction.id claim.ownerId claim.leaseGeneration =
      (c.staged claim).length := by
  have h := hshows.countP_staged claim fun _ ↦ true
  simp only [Bool.and_true, List.countP_true] at h
  exact h

/-- The reconstruction that runs for a claim is the one that its result ends. -/
theorem ReconstructionJob.selected_of_runsFor {claim : ClaimedJob} {job : ReconstructionJob}
    (h : job.runsFor claim = true) : (decide (job.id = job.id) && decide (job.status = .running) &&
      decide (job.sourceLeaseGeneration = some claim.leaseGeneration)) = true := by
  simp only [ReconstructionJob.runsFor, Bool.and_eq_true, decide_eq_true_eq] at h ⊢
  exact ⟨⟨trivial, h.1.2⟩, h.2⟩

/-- A result ends the reconstruction of its own case. -/
theorem Finishes.shows {claim : ClaimedJob} {snapshotId : Uuid} {staging : Staging}
    (h : Finishes now claim snapshotId staging s s') (hkeyed : s.Keyed) (hshows : s.Shows id c)
    (hid : claim.id = id) :
    ∃ c', s'.Shows id c' ∧ CaseFinish now claim snapshotId staging c c' := by
  cases h with
  | absent hnone => exact ⟨c, hshows, .absent (hnone _ hshows.reconstruction_mem)⟩
  | unpublished reconstruction hmem hruns =>
    obtain rfl := hshows.eq_reconstruction_of_job hkeyed hmem
      ((ReconstructionJob.captureJobId_of_runsFor hruns).trans hid)
    exact ⟨_, hshows.updateReconstructions_of_sel _ _ (fun _ ↦ ⟨rfl, rfl⟩)
      (ReconstructionJob.selected_of_runsFor hruns), .unpublished hruns⟩
  | published reconstruction objects hmem hruns hobjects hbuild hready =>
    obtain rfl := hshows.eq_reconstruction_of_job hkeyed hmem
      ((ReconstructionJob.captureJobId_of_runsFor hruns).trans hid)
    rw [hshows.countP_staged] at hready
    rw [hshows.stagedCount_eq]
    have hpublished : (s.artifactsPublished now claim c.reconstruction.id).Shows id
        (c.publish now claim) := hshows.updateArtifacts _ _ fun _ ↦ rfl
    exact ⟨_, hpublished.updateReconstructions_of_sel _ _ (fun _ ↦ ⟨rfl, rfl⟩)
      (ReconstructionJob.selected_of_runsFor hruns),
      .published objects hruns hobjects hbuild hready⟩

/-- A result leaves the other cases. -/
theorem Finishes.shows_of_ne {claim : ClaimedJob} {snapshotId : Uuid} {staging : Staging}
    (h : Finishes now claim snapshotId staging s s') (hkeyed : s.Keyed) (hshows : s.Shows id c)
    (hid : claim.id ≠ id) : s'.Shows id c := by
  have hother : ∀ reconstruction ∈ s.reconstructionJobs, reconstruction.runsFor claim = true →
      c.reconstruction.id ≠ reconstruction.id := by
    intro reconstruction hmem hruns heq
    apply hid
    rw [← ReconstructionJob.captureJobId_of_runsFor hruns,
      hshows.eq_reconstruction hkeyed hmem heq.symm]
    exact hshows.reconstruction_captureJobId
  cases h with
  | absent hnone => exact hshows
  | unpublished reconstruction hmem hruns =>
    refine hshows.updateReconstructions_of_not _ _ (fun _ ↦ ⟨rfl, rfl⟩) ?_
    simp [hother reconstruction hmem hruns]
  | published reconstruction objects hmem hruns hobjects hbuild hready =>
    have hpublished : (s.artifactsPublished now claim reconstruction.id).Shows id c := by
      refine hshows.updateArtifacts_of_not _ _ (fun _ ↦ rfl) fun artifact hartifact ↦ ?_
      have hof := (hshows.mem_artifacts.1 hartifact).2
      simp [ReconstructionArtifact.isStagedFor, hof, hother reconstruction hmem hruns]
    refine hpublished.updateReconstructions_of_not _ _ (fun _ ↦ ⟨rfl, rfl⟩) ?_
    simp [hother reconstruction hmem hruns]

theorem Finishes.captureJobs_eq {claim : ClaimedJob} {snapshotId : Uuid} {staging : Staging}
    (h : Finishes now claim snapshotId staging s s') : s'.captureJobs = s.captureJobs := by
  cases h <;> rfl

theorem CaseFinish.job_eq {claim : ClaimedJob} {snapshotId : Uuid} {staging : Staging} {c' : Case}
    (h : CaseFinish now claim snapshotId staging c c') : c'.job = c.job := by
  cases h <;> rfl

theorem CaseFinish.claims_eq {claim : ClaimedJob} {snapshotId : Uuid} {staging : Staging}
    {c' : Case} (h : CaseFinish now claim snapshotId staging c c') : c'.claims = c.claims := by
  cases h <;> rfl

theorem refines_stageResult {claim : ClaimedJob} {staging : Staging} {u : Unit} (hkeyed : s.Keyed)
    (h : Returns (stageResult env now claim staging) s u s') :
    Refines env (.stageResult now claim staging) none s s' := by
  obtain ⟨⟨job, hjob, hheld⟩, hnew, hlimits, snapshots, references, next, s₁, hnext, hfinish, row, hrow,
    hrowId, rfl⟩ := stageResult_cases h
  have hkeyed₀ := hkeyed.withOthers snapshots references (Nat.le_of_add_right_le hnext)
  have hkeyed₁ := hkeyed₀.finishes hfinish
  have hmem : claim.id ∈ s₁.captureJobs.map CaptureJob.id := by
    rw [hfinish.captureJobs_eq, ← CaptureJob.id_of_isHeldBy hheld]
    exact List.mem_map_of_mem hjob
  have hkeyed₂ : (s₁.resultStored env now claim staging s.nextUuid).Keyed :=
    (hkeyed₁.withBatch (resultBatch env now claim staging s.nextUuid) hmem).updateJobs _ _
      fun _ ↦ rfl
  have hids : s₁.jobIds = s.jobIds := congrArg (List.map CaptureJob.id) hfinish.captureJobs_eq
  refine ⟨hkeyed₂.withEvent hrow, .inl ?_, fun {id c} hshows hclaim ↦ ?_⟩
  · exact (Store.jobIds_withEvent _ _ _ _ _ _ _ _).trans
      ((s₁.jobIds_update _ (CaptureJob.stage staging) fun _ ↦ rfl).trans hids)
  have hshows₀ := hshows.withOthers snapshots references next
  by_cases hid : claim.id = id
  · obtain rfl := hshows.eq_job hkeyed hjob ((CaptureJob.id_of_isHeldBy hheld).trans hid)
    obtain ⟨c', hshows₁, hcase⟩ := hfinish.shows hkeyed₀ hshows₀ hid
    have hshows₂ : (s₁.resultStored env now claim staging s.nextUuid).Shows id
        { c' with job := c'.job.stage staging, batches := c'.batches ++ [s.nextUuid] } :=
      (hshows₁.withBatch (resultBatch env now claim staging s.nextUuid) hid).updateJobs_of_sel
        (fun job ↦ decide (job.id = claim.id)) (CaptureJob.stage staging) (fun _ ↦ rfl)
        (decide_eq_true (hshows₁.job_id.trans hid.symm))
    have hbatches : c.batches = [] := by
      rw [← hshows.batches, List.map_eq_nil_iff, List.filter_eq_nil_iff]
      intro row hrow
      rw [decide_eq_true_eq, ← hid]
      exact hnew row hrow
    exact ⟨_, hshows₂.withEvent hkeyed₂ hrow (hrowId.trans hid) _ _ _ _ _ _,
      .resultStaged (s.nextUuid + 1) s.nextUuid s₁.nextUuid (hclaim claim rfl hid) hheld hbatches hlimits hcase,
      hcase.claims_eq⟩
  · have hshows₁ := hfinish.shows_of_ne hkeyed₀ hshows₀ hid
    have hshows₂ : (s₁.resultStored env now claim staging s.nextUuid).Shows id c :=
      (hshows₁.withBatch_of_ne (resultBatch env now claim staging s.nextUuid) hid).updateJobs_of_not
        (fun job ↦ decide (job.id = claim.id)) (CaptureJob.stage staging) (fun _ ↦ rfl)
        (decide_eq_false fun heq ↦ hid (heq.symm.trans hshows₁.job_id))
    exact ⟨c, hshows₂.withEvent_of_ne (fun heq ↦ hid (hrowId.symm.trans heq)) _ _ _ _ _ _,
      .same _ c, rfl⟩

/-! ### Failures -/

theorem refines_failJob {claim : ClaimedJob} {error : String} {u : Unit} (hkeyed : s.Keyed)
    (h : Returns (failJob now claim (boundedErrorCode env error)) s u s') :
    Refines env (.failJob now claim error) none s s' := by
  rcases failJob_cases h with rfl | ⟨job, hjob, hheld, ⟨hattempts, rfl⟩ |
    ⟨hattempts, row, hrow, hrowId, rfl⟩⟩
  · exact .same hkeyed
  · refine ⟨hkeyed.updateJobs _ _ fun _ ↦ rfl, .inl (s.jobIds_update _ _ fun _ ↦ rfl),
      fun {id c} hshows _ ↦ ?_⟩
    by_cases hid : claim.id = id
    · obtain rfl := hshows.eq_job hkeyed hjob ((CaptureJob.id_of_isHeldBy hheld).trans hid)
      exact ⟨_, hshows.updateJobs_of_sel _ _ (fun _ ↦ rfl)
        (decide_eq_true (hshows.job_id.trans hid.symm)), .retried _ hheld hattempts, rfl⟩
    · exact ⟨c, hshows.updateJobs_of_not _ _ (fun _ ↦ rfl)
        (decide_eq_false fun heq ↦ hid (heq.symm.trans hshows.job_id)), .same _ c, rfl⟩
  · have hkeyed₁ : (s.failed claim.id (boundedErrorCode env error)).Keyed :=
      hkeyed.updateJobs _ _ fun _ ↦ rfl
    refine ⟨(hkeyed₁.fail claim.id).withEvent hrow, .inl ?_, fun {id c} hshows hclaim ↦ ?_⟩
    · exact (Store.jobIds_withEvent _ _ _ _ _ _ _ _).trans (s.jobIds_update _ _ fun _ ↦ rfl)
    by_cases hid : claim.id = id
    · obtain rfl := hshows.eq_job hkeyed hjob ((CaptureJob.id_of_isHeldBy hheld).trans hid)
      have hshows₁ : (s.failed claim.id (boundedErrorCode env error)).Shows id { c with
          job := c.job.fail (boundedErrorCode env error) "Capture failed after bounded retries" } :=
        hshows.updateJobs_of_sel _ _ (fun _ ↦ rfl) (decide_eq_true (hshows.job_id.trans hid.symm))
      have hshows₂ := hshows₁.failReconstruction
      rw [← hid] at hshows₂ ⊢
      exact ⟨_, hshows₂.withEvent (hkeyed₁.fail claim.id) hrow hrowId _ _ _ _ _ _,
        .failed s.nextUuid (hclaim claim rfl hid) hheld hattempts, rfl⟩
    · have hshows₁ : (s.failed claim.id (boundedErrorCode env error)).Shows id c :=
        hshows.updateJobs_of_not _ _ (fun _ ↦ rfl)
          (decide_eq_false fun heq ↦ hid (heq.symm.trans hshows.job_id))
      exact ⟨c, (hshows₁.failReconstruction_of_ne hid).withEvent_of_ne
        (fun heq ↦ hid (hrowId.symm.trans heq)) _ _ _ _ _ _, .same _ c, rfl⟩

/-! ### Claims -/

/-- The exhausted jobs are rows of the table, each once. -/
theorem exhaustedJobs_spec (now : Instant) (locked : List Uuid) (hkeyed : s.Keyed) :
    ((exhaustedJobs now locked s).map CaptureJob.id).Nodup ∧
      ∀ job ∈ exhaustedJobs now locked s, job ∈ s.captureJobs ∧ job.isExhausted now = true := by
  unfold exhaustedJobs
  constructor
  · refine List.Nodup.sublist ((List.take_sublist _ _).map _) ?_
    rw [((List.perm_insertionSort _ _).map CaptureJob.id).nodup_iff]
    exact hkeyed.jobs.sublist (List.filter_sublist.map _)
  · intro job hjob
    have hfilter := (List.perm_insertionSort _ _).mem_iff.1 (List.mem_of_mem_take hjob)
    rw [List.mem_filter, Bool.and_eq_true] at hfilter
    exact ⟨hfilter.1, hfilter.2.1⟩

theorem Exhausts.jobIds_eq {jobs : List CaptureJob} (h : Exhausts now jobs s s') :
    s'.jobIds = s.jobIds := by
  induction h with
  | nil s => rfl
  | cons job row jobs hrow hrowId hrest ih =>
    exact ih.trans (Store.jobIds_withEvent _ _ _ _ _ _ _ _)

theorem Exhausts.shows_of_notMem {jobs : List CaptureJob} (h : Exhausts now jobs s s')
    (hshows : s.Shows id c) (hid : id ∉ jobs.map CaptureJob.id) : s'.Shows id c := by
  induction h with
  | nil s => exact hshows
  | cons job row jobs hrow hrowId hrest ih =>
    rw [List.map_cons, List.mem_cons, not_or] at hid
    apply ih _ hid.2
    exact (hshows.failReconstruction_of_ne (Ne.symm hid.1)).withEvent_of_ne
      (fun heq ↦ hid.1 (heq.symm.trans hrowId)) _ _ _ _ _ _

theorem Exhausts.shows {jobs : List CaptureJob} (h : Exhausts now jobs s s') (hkeyed : s.Keyed)
    (hshows : s.Shows id c) (hnodup : (jobs.map CaptureJob.id).Nodup) {job : CaptureJob}
    (hjob : job ∈ jobs) (hid : job.id = id) :
    ∃ messageId, s'.Shows id (c.failReconstruction.withEvent now messageId job.ownerId
      job.correlationId .failed {} (some "CAPTURE_RETRIES_EXHAUSTED")
      (some "Capture lease expired after bounded retries")) := by
  induction h with
  | nil s => cases hjob
  | @cons s s' head row jobs hrow hrowId hrest ih =>
    rw [List.map_cons, List.nodup_cons] at hnodup
    rcases List.mem_cons.1 hjob with rfl | hjob
    · have hshows₁ := hshows.failReconstruction
      rw [← hid] at hshows₁ ⊢
      exact ⟨s.nextUuid, hrest.shows_of_notMem
        (hshows₁.withEvent (hkeyed.fail job.id) hrow hrowId _ _ _ _ _ _) hnodup.1⟩
    · have hne : head.id ≠ id := by
        intro heq
        apply hnodup.1
        rw [heq, ← hid]
        exact List.mem_map_of_mem hjob
      exact ih ((hkeyed.fail head.id).withEvent hrow)
        ((hshows.failReconstruction_of_ne hne).withEvent_of_ne
          (fun heq ↦ hne (hrowId.symm.trans heq)) _ _ _ _ _ _) hnodup.2 hjob

/-- A candidate is a row of the table that waits for an attempt. -/
theorem claimCandidate_spec {locked : List Uuid} {job : CaptureJob}
    (h : claimCandidate now locked s = some job) :
    job ∈ s.captureJobs ∧ job.isAvailable now = true := by
  have hmem := List.mem_filter.1 (Table.firstBy_mem h)
  rw [Bool.and_eq_true] at hmem
  exact ⟨hmem.1, hmem.2.1⟩

/-- Queueing expired jobs again does so to the job of the case if it expired. -/
theorem Store.Shows.requeued (hshows : s.Shows id c) (now : Instant) :
    (s.requeued now).Shows id (if c.job.isExpired now then c.requeue now else c) := by
  have h := hshows.updateJobs (CaptureJob.isExpired now)
    (fun job ↦ job.requeue now job.terminalCode) fun _ ↦ rfl
  by_cases hexpired : c.job.isExpired now = true
  · rw [hexpired] at h ⊢
    exact h
  · rw [Bool.eq_false_iff.2 hexpired] at h ⊢
    exact h

/-- The database after a worker claimed a job. -/
def Store.taken (now : Instant) (workerId : Uuid) (job row : CaptureJob) (s : Store) : Store :=
  ((s.claimed now workerId job).withEvent now row job.ownerId job.correlationId .running {} none
    none).reconstructionStarted job.id (job.leaseGeneration + 1)

/-- A claim of the job of the case. -/
theorem Store.Shows.taken (hshows : s.Shows id c) (hkeyed : s.Keyed) {workerId : Uuid}
    {row : CaptureJob} (hrow : row ∈ (s.claimed now workerId c.job).captureJobs)
    (hrowId : row.id = id) :
    (s.taken now workerId c.job row).Shows id (c.claim now workerId s.nextUuid) := by
  have hkeyed₁ : (s.claimed now workerId c.job).Keyed := hkeyed.updateJobs _ _ fun _ ↦ rfl
  have hshows₁ : (s.claimed now workerId c.job).Shows id
      { c with job := c.job.claim now workerId } :=
    hshows.updateJobs_of_sel _ _ (fun _ ↦ rfl) (decide_eq_true rfl)
  have hshows₂ : ((s.claimed now workerId c.job).withEvent now row c.job.ownerId
      c.job.correlationId .running {} none none).Shows id _ :=
    hshows₁.withEvent hkeyed₁ hrow hrowId _ _ _ _ _ _
  have hshows₃ := hshows₂.updateReconstructions (ReconstructionJob.isActiveOf c.job.id)
    (ReconstructionJob.start (c.job.leaseGeneration + 1)) fun _ ↦ ⟨rfl, rfl⟩
  have hactive : c.reconstruction.isActiveOf c.job.id = c.reconstruction.status.isActive := by
    rw [ReconstructionJob.isActiveOf, hshows.job_id,
      decide_eq_true hshows.reconstruction_captureJobId, Bool.true_and]
  simp only [Case.withEvent, hactive] at hshows₃
  exact { hshows₃ with }

/-- A claim of another job. -/
theorem Store.Shows.taken_of_ne (hshows : s.Shows id c) {workerId : Uuid} {job row : CaptureJob}
    (hid : job.id ≠ id) (hrowId : row.id = job.id) :
    (s.taken now workerId job row).Shows id c := by
  have hshows₁ : (s.claimed now workerId job).Shows id c :=
    hshows.updateJobs_of_not _ _ (fun _ ↦ rfl)
      (decide_eq_false fun heq ↦ hid (heq.symm.trans hshows.job_id))
  have hshows₂ : ((s.claimed now workerId job).withEvent now row job.ownerId job.correlationId
      .running {} none none).Shows id c :=
    hshows₁.withEvent_of_ne (fun heq ↦ hid (hrowId.symm.trans heq)) _ _ _ _ _ _
  refine hshows₂.updateReconstructions_of_not _ _ (fun _ ↦ ⟨rfl, rfl⟩) ?_
  simp [ReconstructionJob.isActiveOf, hshows.reconstruction_captureJobId, hid.symm]

/-- A worker gets the job of the case, or the case stays. -/
theorem Store.Shows.claimOutcome (hshows : s.Shows id c) (hkeyed : s.Keyed) {locked : List Uuid}
    {workerId : Uuid} {result : Option ClaimedJob}
    (h : result = none ∧ s' = s ∨ ∃ job, claimCandidate now locked s = some job ∧
      result = some (job.claimed workerId) ∧
        ∃ row ∈ (s.claimed now workerId job).captureJobs, row.id = job.id ∧
          s' = s.taken now workerId job row) :
    s'.Shows id c ∧ claimsAfter id result c.claims = c.claims ∨
      c.job.isAvailable now = true ∧ ∃ messageId, s'.Shows id (c.claim now workerId messageId) ∧
        claimsAfter id result c.claims = c.job.claimed workerId :: c.claims := by
  rcases h with ⟨rfl, rfl⟩ | ⟨job, hjob, rfl, row, hrow, hrowId, rfl⟩
  · exact .inl ⟨hshows, rfl⟩
  · obtain ⟨hmem, havailable⟩ := claimCandidate_spec hjob
    by_cases hid : job.id = id
    · obtain rfl := hshows.eq_job hkeyed hmem hid
      refine .inr ⟨havailable, s.nextUuid, hshows.taken hkeyed hrow (hrowId.trans hid), ?_⟩
      exact if_pos hid
    · exact .inl ⟨hshows.taken_of_ne hid hrowId, if_neg hid⟩

/-- The job of an exhausted case is over. -/
theorem not_isExpired_exhaust {messageId : Uuid} :
    (c.exhaust now messageId).job.isExpired now = false := by
  simp [Case.exhaust, Case.withEvent, Case.failReconstruction, CaptureJob.isExpired,
    CaptureJob.bump, CaptureJob.fail]

theorem not_isAvailable_exhaust {messageId : Uuid} :
    (c.exhaust now messageId).job.isAvailable now = false := by
  simp [Case.exhaust, Case.withEvent, Case.failReconstruction, CaptureJob.isAvailable,
    CaptureJob.bump, CaptureJob.fail]

theorem refines_claimJob {locks : ClaimLocks} {workerId : Uuid} {result : Option ClaimedJob}
    (hkeyed : s.Keyed)
    (h : Returns (claimJob now locks workerId) s result s') :
    Refines env (.claimJob now locks workerId) result s s' := by
  obtain ⟨s₁, hexhausts, h⟩ := claimJob_cases h
  obtain ⟨hnodup, hexhausted⟩ := exhaustedJobs_spec now locks.expired hkeyed
  have hkeyed₀ : (s.exhausted ((exhaustedJobs now locks.expired s).map CaptureJob.id)).Keyed :=
    hkeyed.updateJobs _ _ fun _ ↦ rfl
  have hkeyed₁ := hkeyed₀.exhausts hexhausts
  have hkeyed₂ : (s₁.requeued now).Keyed := hkeyed₁.updateJobs _ _ fun _ ↦ rfl
  constructor
  · rcases h with ⟨-, rfl⟩ | ⟨job, hjob, -, row, hrow, hid, rfl⟩
    · exact hkeyed₂
    · have hkeyed₃ : ((s₁.requeued now).claimed now workerId job).Keyed :=
        hkeyed₂.updateJobs _ _ fun _ ↦ rfl
      exact (hkeyed₃.withEvent hrow).updateReconstructions _ _ fun _ ↦ ⟨rfl, rfl⟩
  · have hids : (s₁.requeued now).jobIds = s.jobIds :=
      (s₁.jobIds_update (CaptureJob.isExpired now) (fun job ↦ job.requeue now job.terminalCode)
        fun _ ↦ rfl).trans (hexhausts.jobIds_eq.trans (s.jobIds_update _ _ fun _ ↦ rfl))
    left
    rcases h with ⟨-, rfl⟩ | ⟨job, hjob, -, row, hrow, hid, rfl⟩
    · exact hids
    · change (((s₁.requeued now).claimed now workerId job).withEvent now row job.ownerId
        job.correlationId .running {} none none).jobIds = s.jobIds
      rw [Store.jobIds_withEvent]
      exact (Store.jobIds_update _ _ (CaptureJob.claim now workerId) fun _ ↦ rfl).trans hids
  -- The case is exhausted, or it is what it was.
  intro id c hshows _
  by_cases hid : id ∈ (exhaustedJobs now locks.expired s).map CaptureJob.id
  · obtain ⟨job, hjob, hjobId⟩ := List.mem_map.1 hid
    obtain rfl := hshows.eq_job hkeyed (hexhausted job hjob).1 hjobId
    have hshows₀ : (s.exhausted ((exhaustedJobs now locks.expired s).map CaptureJob.id)).Shows id
        { c with job := c.job.fail "CAPTURE_RETRIES_EXHAUSTED"
                  "Capture lease expired after bounded retries" } :=
      hshows.updateJobs_of_sel _ _ (fun _ ↦ rfl) (decide_eq_true (hjobId ▸ hid))
    obtain ⟨messageId, hshows₁⟩ := hexhausts.shows hkeyed₀ hshows₀ hnodup hjob hjobId
    have hexhaust : s₁.Shows id (c.exhaust now messageId) := hshows₁
    have hshows₂ := hexhaust.requeued now
    rw [if_neg (Bool.eq_false_iff.1 not_isExpired_exhaust)] at hshows₂
    rcases hshows₂.claimOutcome hkeyed₂ h with ⟨hshows', hclaims⟩ | ⟨havailable, -⟩
    · exact ⟨_, hshows', .exhausted messageId (hexhausted _ hjob).2, hclaims.symm⟩
    · rw [not_isAvailable_exhaust] at havailable
      cases havailable
  · have hshows₀ : (s.exhausted ((exhaustedJobs now locks.expired s).map CaptureJob.id)).Shows id c
        := hshows.updateJobs_of_not _ _ (fun _ ↦ rfl) (decide_eq_false (hshows.job_id ▸ hid))
    have hshows₁ := hexhausts.shows_of_notMem hshows₀ hid
    have hshows₂ := hshows₁.requeued now
    by_cases hexpired : c.job.isExpired now = true
    · rw [if_pos hexpired] at hshows₂
      rcases hshows₂.claimOutcome hkeyed₂ h with ⟨hshows', hclaims⟩ |
        ⟨-, messageId, hshows', hclaims⟩
      · exact ⟨_, hshows', .requeued hexpired, hclaims.symm⟩
      · exact ⟨_, hshows', .reclaimed messageId hexpired, hclaims.symm⟩
    · rw [if_neg hexpired] at hshows₂
      rcases hshows₂.claimOutcome hkeyed₂ h with ⟨hshows', hclaims⟩ |
        ⟨havailable, messageId, hshows', hclaims⟩
      · exact ⟨_, hshows', .same _ c, hclaims.symm⟩
      · exact ⟨_, hshows', .claimed messageId havailable, hclaims.symm⟩

/-! ### Analytics and events -/

theorem refines_claimAnalytics {locked : List Uuid} {workerId : Uuid}
    {result : Option ClaimedOutbox} (hkeyed : s.Keyed)
    (h : Returns (claimAnalytics now locked workerId) s result s') :
    Refines env (.claimAnalytics now locked workerId) none s s' := by
  rcases claimAnalytics_cases h with ⟨-, rfl⟩ | ⟨row, -, -, -, rfl⟩
  · exact .same hkeyed
  · exact ⟨hkeyed.updateBatches _ _ fun _ ↦ rfl, .inl rfl, fun hshows _ ↦
      ⟨_, hshows.updateBatches _ _ fun _ ↦ ⟨rfl, rfl⟩, .same _ _, rfl⟩⟩

theorem refines_completeAnalytics {outbox : ClaimedOutbox} {u : Unit} (hkeyed : s.Keyed) (h : Returns (completeAnalytics now outbox) s u s') :
    Refines env (.completeAnalytics now outbox) none s s' := by
  obtain ⟨-, job, hfound, row, hrow, hrowId, rfl⟩ := completeAnalytics_cases h
  have hjob := List.find?_some hfound
  simp only [Bool.and_eq_true, decide_eq_true_eq] at hjob
  have hkeyed₁ := hkeyed.updateBatches (AnalyticsRow.isClaimedBy outbox) AnalyticsRow.deliver
    fun _ ↦ rfl
  have hkeyed₂ : (s.completed outbox).Keyed := hkeyed₁.updateJobs _ _ fun _ ↦ rfl
  refine ⟨hkeyed₂.withEvent hrow, .inl ?_, fun {id c} hshows _ ↦ ?_⟩
  · exact (Store.jobIds_withEvent _ _ _ _ _ _ _ _).trans
      (s.jobIds_update _ CaptureJob.complete fun _ ↦ rfl)
  have hshows₁ := hshows.updateBatches (AnalyticsRow.isClaimedBy outbox) AnalyticsRow.deliver
    fun _ ↦ ⟨rfl, rfl⟩
  by_cases hid : outbox.jobId = id
  · obtain rfl := hshows.eq_job hkeyed (List.mem_of_find?_eq_some hfound) (hjob.1.trans hid)
    have hshows₂ : (s.completed outbox).Shows id { c with job := c.job.complete } := by
      refine hshows₁.updateJobs_of_sel _ _ (fun _ ↦ rfl) ?_
      rw [decide_eq_true hjob.1, decide_eq_true hjob.2, Bool.and_self]
    exact ⟨_, hshows₂.withEvent hkeyed₂ hrow (hrowId.trans hid) _ _ _ _ _ _,
      .completed s.nextUuid hjob.2, rfl⟩
  · have hshows₂ : (s.completed outbox).Shows id c := by
      refine hshows₁.updateJobs_of_not _ _ (fun _ ↦ rfl) ?_
      rw [decide_eq_false fun heq ↦ hid (heq.symm.trans hshows.job_id), Bool.false_and]
    exact ⟨c, hshows₂.withEvent_of_ne (fun heq ↦ hid (hrowId.symm.trans heq)) _ _ _ _ _ _,
      .same _ c, rfl⟩

theorem refines_retryAnalytics {outbox : ClaimedOutbox} {u : Unit} (hkeyed : s.Keyed) (h : Returns (retryAnalytics env now outbox) s u s') :
    Refines env (.retryAnalytics now outbox) none s s' := by
  obtain rfl := retryAnalytics_cases h
  exact ⟨hkeyed.updateBatches _ _ fun _ ↦ rfl, .inl rfl, fun hshows _ ↦
    ⟨_, hshows.updateBatches _ _ fun _ ↦ ⟨rfl, rfl⟩, .same _ _, rfl⟩⟩

theorem refines_claimEvent {locked : List Uuid} {workerId : Uuid} {result : Option ClaimedEvent}
    (hkeyed : s.Keyed)
    (h : Returns (claimEvent now locked workerId) s result s') :
    Refines env (.claimEvent now locked workerId) none s s' := by
  rcases claimEvent_cases h with ⟨-, rfl⟩ | ⟨row, -, -, rfl⟩
  · exact .same hkeyed
  · exact ⟨hkeyed.updateEvents _ _ fun _ ↦ ⟨rfl, rfl, rfl⟩, .inl rfl, fun hshows _ ↦
      ⟨_, hshows.updateEvents _ _ fun _ ↦ ⟨rfl, rfl⟩, .same _ _, rfl⟩⟩

theorem refines_completeEvent {event : ClaimedEvent} {u : Unit} (hkeyed : s.Keyed) (h : Returns (completeEvent event) s u s') :
    Refines env (.completeEvent event) none s s' := by
  obtain rfl := completeEvent_cases h
  exact ⟨hkeyed.updateEvents _ _ fun _ ↦ ⟨rfl, rfl, rfl⟩, .inl rfl, fun hshows _ ↦
    ⟨_, hshows.updateEvents _ _ fun _ ↦ ⟨rfl, rfl⟩, .same _ _, rfl⟩⟩

theorem refines_retryEvent {event : ClaimedEvent} {u : Unit} (hkeyed : s.Keyed) (h : Returns (retryEvent env now event) s u s') :
    Refines env (.retryEvent now event) none s s' := by
  obtain rfl := retryEvent_cases h
  exact ⟨hkeyed.updateEvents _ _ fun _ ↦ ⟨rfl, rfl, rfl⟩, .inl rfl, fun hshows _ ↦
    ⟨_, hshows.updateEvents _ _ fun _ ↦ ⟨rfl, rfl⟩, .same _ _, rfl⟩⟩

/-! ### Garbage collection -/

theorem Case.claims_expire {claimed : ClaimedReconstructionArtifact} :
    (c.expire claimed).claims = c.claims := by
  unfold Case.expire
  split_ifs <;> rfl

theorem Store.Shows.reconstructionExpired {claimed : ClaimedReconstructionArtifact}
    (hshows : s.Shows id c) (hof : claimed.reconstructionId = c.reconstruction.id) :
    (s.reconstructionExpired claimed).Shows id (c.expire claimed) := by
  unfold Store.reconstructionExpired Case.expire
  by_cases hkind : claimed.kind = .staticArchive
  · have h := hshows.updateReconstructions
      (fun job ↦ decide (job.id = claimed.reconstructionId) && job.status.isPublished)
      ReconstructionJob.expire fun _ ↦ ⟨rfl, rfl⟩
    rw [decide_eq_true hof.symm, Bool.true_and] at h
    rw [if_pos hkind]
    by_cases hpublished : c.reconstruction.status.isPublished = true
    · rw [if_pos ⟨hkind, hpublished⟩]
      rw [if_pos hpublished] at h
      exact h
    · rw [if_neg fun hboth ↦ hpublished hboth.2]
      rw [if_neg hpublished] at h
      exact h
  · rw [if_neg hkind, if_neg fun hboth ↦ hkind hboth.1]
    exact hshows

theorem refines_claimReconstructionArtifactForDeletion {locked : List Uuid}
    {result : Option ClaimedReconstructionArtifact} (hkeyed : s.Keyed)
    (h : Returns (claimReconstructionArtifactForDeletion now locked) s result s') :
    Refines env (.claimReconstructionArtifactForDeletion now locked) none s s' := by
  rcases claimReconstructionArtifactForDeletion_cases h with
    ⟨-, rfl⟩ | ⟨artifact, hmem, hstate, hdue, -, rfl⟩
  · exact .same hkeyed
  · refine ⟨hkeyed.updateArtifacts _ _ fun _ ↦ rfl, .inl rfl, fun {id c} hshows _ ↦ ?_⟩
    by_cases hof : artifact.reconstructionJobId = c.reconstruction.id
    · exact ⟨_, hshows.updateArtifacts _ _ fun _ ↦ rfl,
        .artifactClaimed artifact (hshows.mem_artifacts.2 ⟨hmem, hof⟩)
          (hshows.eq_artifact hkeyed hmem) hstate hdue, rfl⟩
    · refine ⟨c, hshows.updateArtifacts_of_not _ _ (fun _ ↦ rfl) ?_, .same _ c, rfl⟩
      intro other hother
      obtain ⟨hotherMem, hotherOf⟩ := hshows.mem_artifacts.1 hother
      refine decide_eq_false fun heq ↦ hof ?_
      rw [← Table.eq_of_key_eq hkeyed.artifacts hotherMem hmem heq]
      exact hotherOf

theorem refines_completeReconstructionArtifactDeletion {claimed : ClaimedReconstructionArtifact}
    {u : Unit} (hkeyed : s.Keyed)
    (hkey : claimed.key ∈ s.artifacts.map ReconstructionArtifact.key)
    (h : Returns (completeReconstructionArtifactDeletion claimed) s u s') :
    Refines env (.completeReconstructionArtifactDeletion claimed) none s s' := by
  obtain ⟨⟨artifact, hmem, hclaimed⟩, rfl⟩ := completeReconstructionArtifactDeletion_cases h
  have hkeyed₁ : (s.artifactsMoved (ReconstructionArtifact.isClaimedAs claimed)
      ReconstructionArtifact.delete).Keyed := hkeyed.updateArtifacts _ _ fun _ ↦ rfl
  constructor
  · unfold Store.reconstructionExpired
    split_ifs
    · exact hkeyed₁.updateReconstructions _ _ fun _ ↦ ⟨rfl, rfl⟩
    · exact hkeyed₁
  · left
    unfold Store.reconstructionExpired
    split_ifs <;> rfl
  intro id c hshows _
  by_cases hof : claimed.reconstructionId = c.reconstruction.id
  · have hshows₁ := hshows.updateArtifacts (ReconstructionArtifact.isClaimedAs claimed)
      ReconstructionArtifact.delete fun _ ↦ rfl
    have hids := hclaimed
    simp only [ReconstructionArtifact.isClaimedAs, Bool.and_eq_true, decide_eq_true_eq] at hids
    have hkind : artifact.kind = claimed.kind := by
      obtain ⟨other, hother, heq⟩ := List.mem_map.1 hkey
      simp only [ReconstructionArtifact.key, ClaimedReconstructionArtifact.key,
        Prod.mk.injEq] at heq
      rw [← Table.eq_of_key_eq hkeyed.artifacts hother hmem (heq.1.trans hids.1.1.symm)]
      exact heq.2.2
    exact ⟨_, hshows₁.reconstructionExpired hof, .artifactDeleted artifact
      (hshows.mem_artifacts.2 ⟨hmem, hids.1.2.trans hof⟩) (hshows.eq_artifact hkeyed hmem) hclaimed
      hkind, Case.claims_expire⟩
  · refine ⟨c, ?_, .same _ c, rfl⟩
    have hshows₁ : (s.artifactsMoved (ReconstructionArtifact.isClaimedAs claimed)
        ReconstructionArtifact.delete).Shows id c := by
      refine hshows.updateArtifacts_of_not _ _ (fun _ ↦ rfl) fun other hother ↦ ?_
      have hotherOf := (hshows.mem_artifacts.1 hother).2
      simp [ReconstructionArtifact.isClaimedAs, hotherOf, Ne.symm hof]
    unfold Store.reconstructionExpired
    split_ifs
    · refine hshows₁.updateReconstructions_of_not _ _ (fun _ ↦ ⟨rfl, rfl⟩) ?_
      simp [Ne.symm hof]
    · exact hshows₁

theorem refines_retryReconstructionArtifactDeletion {claimed : ClaimedReconstructionArtifact}
    {u : Unit} (hkeyed : s.Keyed)
    (h : Returns (retryReconstructionArtifactDeletion now claimed) s u s') :
    Refines env (.retryReconstructionArtifactDeletion now claimed) none s s' := by
  obtain rfl := retryReconstructionArtifactDeletion_cases h
  exact ⟨hkeyed.updateArtifacts _ _ fun _ ↦ rfl, .inl rfl, fun hshows _ ↦
    ⟨_, hshows.updateArtifacts _ _ fun _ ↦ rfl, .artifactPostponed, rfl⟩⟩

/-! ### Commands -/

theorem refines_acceptCommand {envelope : CaptureCommandEnvelope} {duplicate : Bool}
    (hkeyed : s.Keyed)
    (h : Returns (acceptCommand env now envelope) s duplicate s') :
    Refines env (.acceptCommand now envelope) none s s' := by
  rcases acceptCommand_cases h with rfl | ⟨hnew, rfl⟩
  · exact .same hkeyed
  · refine ⟨hkeyed.accepted hnew, .inr ⟨rfl, _, _, _, hnew, rfl⟩, fun {id c} hshows _ ↦ ⟨c, ?_, .same _ c, rfl⟩⟩
    refine { hshows with job := ?_, reconstruction := ?_ }
    · change (s.captureJobs ++ [_]).find? _ = _
      rw [List.find?_append, hshows.job]
      rfl
    · change (s.reconstructionJobs ++ [_]).find? _ = _
      rw [List.find?_append, hshows.reconstruction]
      rfl

/-- The case of a command. -/
def newCase (now : Instant) (hash : ByteString) (envelope : CaptureCommandEnvelope)
    (reconstructionId : Uuid) : Case where
  job := newCaptureJob now hash envelope
  reconstruction := newReconstructionJob reconstructionId envelope
  artifacts := []
  batches := []
  events := []
  claims := []

/-- A command that is accepted shows a new case. -/
theorem shows_accepted {hash : ByteString} {envelope : CaptureCommandEnvelope} (hkeyed : s.Keyed)
    (hnew : ∀ job ∈ s.captureJobs, job.id ≠ envelope.payload.captureRequestId) :
    (s.accepted now hash envelope).Shows envelope.payload.captureRequestId
      (newCase now hash envelope s.nextUuid) := by
  have hids : envelope.payload.captureRequestId ∉ s.captureJobs.map CaptureJob.id := by
    intro hmem
    obtain ⟨job, hjob, hid⟩ := List.mem_map.1 hmem
    exact hnew job hjob hid
  have hkeys : ∀ job ∈ s.reconstructionJobs,
      job.captureJobId ≠ envelope.payload.captureRequestId := by
    intro job hjob hid
    have hmem : job.key ∈ s.captureJobs.map CaptureJob.key := by
      rw [← hkeyed.aligned]
      exact List.mem_map_of_mem hjob
    obtain ⟨other, hother, hkey⟩ := List.mem_map.1 hmem
    exact hnew other hother ((congrArg Prod.fst hkey).trans hid)
  constructor
  · change (s.captureJobs ++ [newCaptureJob now hash envelope]).find? _ = _
    rw [List.find?_append, List.find?_eq_none.2 fun job hjob ↦ by simpa using hnew job hjob]
    simp [newCaptureJob, newCase]
  · change (s.reconstructionJobs ++ [newReconstructionJob s.nextUuid envelope]).find? _ = _
    rw [List.find?_append, List.find?_eq_none.2 fun job hjob ↦ by simpa using hkeys job hjob]
    simp [newReconstructionJob, newCase]
  · refine List.filter_eq_nil_iff.2 fun artifact hartifact ↦ ?_
    rw [decide_eq_true_eq]
    intro heq
    obtain ⟨job, hjob, hid⟩ := List.mem_map.1 (hkeyed.artifactsOf artifact hartifact)
    exact (hkeyed.reconstructions_lt job hjob).ne (hid.trans heq)
  · refine List.map_eq_nil_iff.2 (List.filter_eq_nil_iff.2 fun row hrow ↦ ?_)
    rw [decide_eq_true_eq]
    exact fun heq ↦ hids (heq ▸ hkeyed.batches row hrow)
  · refine List.map_eq_nil_iff.2 (List.filter_eq_nil_iff.2 fun row hrow ↦ ?_)
    rw [decide_eq_true_eq]
    exact fun heq ↦ hids (heq ▸ hkeyed.events row hrow)

/-! ### Steps of the system -/

/-- The tables are keyed, and what the loops hold refers to rows. -/
structure System.Keyed (sys : System) : Prop where
  store : sys.store.Keyed
  claims : ∀ claim ∈ sys.claims, claim.id ∈ sys.store.captureJobs.map CaptureJob.id
  deletions : ∀ claimed ∈ sys.deletions,
    claimed.key ∈ sys.store.artifacts.map ReconstructionArtifact.key

/-- Every job has a case. -/
theorem Store.Keyed.exists_shows (h : s.Keyed) (hid : id ∈ s.captureJobs.map CaptureJob.id)
    (claims : List ClaimedJob) : ∃ c, s.Shows id c ∧ c.claims = claims := by
  obtain ⟨job, hjob, rfl⟩ := List.mem_map.1 hid
  have hkey : job.key ∈ s.reconstructionJobs.map ReconstructionJob.key := by
    rw [h.aligned]
    exact List.mem_map_of_mem hjob
  obtain ⟨other, hother, hotherKey⟩ := List.mem_map.1 hkey
  have hotherId : other.captureJobId = job.id := congrArg Prod.fst hotherKey
  cases hfound : s.reconstructionJobs.find? (fun other ↦ decide (other.captureJobId = job.id)) with
  | none => exact absurd hotherId (by simpa using List.find?_eq_none.1 hfound other hother)
  | some reconstruction =>
    exact ⟨{ job := job, reconstruction := reconstruction, batches := _, events := _
             artifacts := s.artifacts.filter fun artifact ↦
               decide (artifact.reconstructionJobId = reconstruction.id)
             claims := claims },
      ⟨Table.find?_key h.jobs hjob, hfound, rfl, rfl, rfl⟩, rfl⟩

/-- Every artifact belongs to a case. -/
theorem Store.Keyed.exists_shows_artifact (h : s.Keyed) {artifact : ReconstructionArtifact}
    (hartifact : artifact ∈ s.artifacts) (claims : Uuid → List ClaimedJob) :
    ∃ id c, s.Shows id c ∧ c.claims = claims id ∧ artifact ∈ c.artifacts := by
  obtain ⟨reconstruction, hreconstruction, hid⟩ := List.mem_map.1 (h.artifactsOf artifact hartifact)
  have hkey : reconstruction.key ∈ s.captureJobs.map CaptureJob.key := by
    rw [← h.aligned]
    exact List.mem_map_of_mem hreconstruction
  obtain ⟨job, hjob, hjobKey⟩ := List.mem_map.1 hkey
  have hjobId : job.id = reconstruction.captureJobId := congrArg Prod.fst hjobKey
  obtain ⟨c, hshows, hclaims⟩ := h.exists_shows (List.mem_map_of_mem hjob) (claims job.id)
  refine ⟨job.id, c, hshows, hclaims, hshows.mem_artifacts.2 ⟨hartifact, ?_⟩⟩
  rw [← hshows.eq_reconstruction_of_job h hreconstruction hjobId.symm]
  exact hid.symm

/-- No step takes an artifact from a case or gives it another key. -/
theorem CaseStep.artifacts_subset {action : Action} {c' : Case} (h : CaseStep env action c c') :
    c.artifacts.map ReconstructionArtifact.key ⊆ c'.artifacts.map ReconstructionArtifact.key := by
  have hmoved : ∀ (sel : ReconstructionArtifact → Bool)
      (set : ReconstructionArtifact → ReconstructionArtifact) (c : Case),
      (∀ artifact, (set artifact).key = artifact.key) →
      c.artifacts.map ReconstructionArtifact.key ⊆
        (c.moveArtifact sel set).artifacts.map ReconstructionArtifact.key := by
    intro sel set c hset
    rw [Case.moveArtifact, Table.map_update _ fun artifact _ _ ↦ hset artifact]
    exact List.Subset.refl _
  cases h with
  | artifactsStaged archiveId manifestId hheld hruns hfresh =>
    rw [Case.stageArtifacts, List.map_append]
    exact List.subset_append_left _ _
  | resultStaged snapshotId batchId messageId hclaim hheld hbatches hlimits hfinish =>
    cases hfinish with
    | absent h => exact List.Subset.refl _
    | unpublished h => exact List.Subset.refl _
    | published objects h hobjects hbuild hready => exact hmoved _ _ _ fun _ ↦ rfl
  | artifactClaimed artifact hmem hids hstate hdue => exact hmoved _ _ _ fun _ ↦ rfl
  | artifactDeleted artifact hmem hids hclaimed hkind =>
    have hexpire : ∀ (claimed : ClaimedReconstructionArtifact) (c : Case),
        (c.expire claimed).artifacts = c.artifacts := by
      intro claimed c
      unfold Case.expire
      split_ifs <;> rfl
    rw [hexpire]
    exact hmoved _ _ _ fun _ ↦ rfl
  | artifactPostponed => exact hmoved _ _ _ fun _ ↦ rfl
  | same | exhausted | requeued | claimed | reclaimed | extended | retried | failed | completed =>
    exact List.Subset.refl _

/-- Every transaction refines the cases when it commits. -/
theorem refines_commit {α : Type} {body : Tx α} {action : Action} (hkeyed : s.Keyed)
    (h : ∀ a s', Returns body s a s' → Refines env action none s s') :
    Refines env action none s (commit body s).2 :=
  @commit_snd_induction _ _ _ _ _ (Refines env action none s) (.same hkeyed) h

/-- What a step of the system does to the tables, the claims and the deletions. -/
structure SystemRefines (env : Env) (action : Action) (given : Option ClaimedJob)
    (sys sys' : System) : Prop where
  store : Refines env action given sys.store sys'.store
  claims : sys'.claims = given.toList ++ sys.claims
  given_mem : ∀ claim, given = some claim →
    claim.id ∈ sys'.store.captureJobs.map CaptureJob.id
  deletions : ∀ claimed ∈ sys'.deletions, claimed ∈ sys.deletions ∨
    claimed.key ∈ sys.store.artifacts.map ReconstructionArtifact.key
  held : ∀ claim, action.claim? = some claim → claim ∈ sys.claims ∨ sys' = sys

theorem systemRefines_same {action : Action} {sys : System} (hkeyed : sys.Keyed) :
    SystemRefines env action none sys sys where
  store := .same hkeyed.store
  claims := rfl
  given_mem _ h := by cases h
  deletions _ h := .inl h
  held _ _ := .inr rfl

/-- A transaction that gives nothing, if its caller holds what it comes back with. -/
theorem systemRefines_ite {α : Type} {body : Tx α} {action : Action} {sys : System}
    (held : Prop) [Decidable held] (hkeyed : sys.Keyed)
    (hheld : ∀ claim, action.claim? = some claim → held → claim ∈ sys.claims)
    (h : ∀ a s', Returns body sys.store a s' → Refines env action none sys.store s') :
    SystemRefines env action none sys
      (if held then { sys with store := (commit body sys.store).2 } else sys) := by
  by_cases hcondition : held
  · rw [if_pos hcondition]
    exact {
      store := refines_commit hkeyed.store h
      claims := rfl
      given_mem := fun _ h ↦ (by cases h)
      deletions := fun _ h ↦ .inl h
      held := fun claim hclaim ↦ .inl (hheld claim hclaim hcondition) }
  · rw [if_neg hcondition]
    exact systemRefines_same hkeyed

/-- A transaction that gives neither a claim nor a deletion, whoever its caller is. -/
theorem systemRefines_commit {α : Type} {body : Tx α} {action : Action} {sys sys' : System}
    (hkeyed : sys.Keyed) (hstore : sys'.store = (commit body sys.store).2)
    (hclaims : sys'.claims = sys.claims) (hdeletions : sys'.deletions = sys.deletions)
    (hclaim : action.claim? = none)
    (h : ∀ a s', Returns body sys.store a s' → Refines env action none sys.store s') :
    SystemRefines env action none sys sys' where
  store := hstore ▸ refines_commit hkeyed.store h
  claims := hclaims
  given_mem _ h := by cases h
  deletions claimed h := .inl (hdeletions ▸ h)
  held claim h := by
    rw [hclaim] at h
    cases h

/-- The job of a claim is in the table. -/
theorem claimJob_mem {locks : ClaimLocks} {workerId : Uuid} {claim : ClaimedJob}
    (h : Returns (claimJob now locks workerId) s (some claim) s') :
    claim.id ∈ s'.captureJobs.map CaptureJob.id := by
  obtain ⟨s₁, -, ⟨hnone, -⟩ | ⟨job, -, hclaim, row, hrow, hid, rfl⟩⟩ := claimJob_cases h
  · cases hnone
  · obtain rfl := Option.some.inj hclaim
    change job.id ∈ (Table.update (fun other ↦ decide (other.id = row.id)) CaptureJob.bump
      ((s₁.requeued now).claimed now workerId job).captureJobs).map CaptureJob.id
    have hids : (Table.update (fun other ↦ decide (other.id = row.id)) CaptureJob.bump
        ((s₁.requeued now).claimed now workerId job).captureJobs).map CaptureJob.id =
          ((s₁.requeued now).claimed now workerId job).captureJobs.map CaptureJob.id :=
      Table.map_update CaptureJob.id fun _ _ _ ↦ rfl
    rw [hids, ← hid]
    exact List.mem_map_of_mem hrow

theorem systemRefines_claimJob {sys : System} (hkeyed : sys.Keyed) (locks : ClaimLocks)
    (workerId : Uuid) : ∃ given, SystemRefines env (.claimJob now locks workerId) given sys
      (sys.step env (.claimJob now locks workerId)) := by
  simp only [System.step]
  rcases commit_cases (claimJob now locks workerId) sys.store with
    ⟨result, s', heq, hreturns⟩ | ⟨e, heq⟩
  · rw [heq]
    refine ⟨result, refines_claimJob hkeyed.store hreturns, ?_, ?_, fun _ h ↦ .inl h, ?_⟩
    · cases result <;> rfl
    · rintro claim rfl
      exact claimJob_mem hreturns
    · intro claim h
      cases h
  · rw [heq]
    exact ⟨none, systemRefines_same hkeyed⟩

/-- A deletion is given for an artifact of the table. -/
theorem systemRefines_claimDeletion {sys : System} (hkeyed : sys.Keyed) (locked : List Uuid) :
    SystemRefines env (.claimReconstructionArtifactForDeletion now locked) none sys
      (sys.step env (.claimReconstructionArtifactForDeletion now locked)) := by
  simp only [System.step]
  rcases commit_cases (claimReconstructionArtifactForDeletion now locked) sys.store with
    ⟨result, s', heq, hreturns⟩ | ⟨e, heq⟩
  · rw [heq]
    refine ⟨refines_claimReconstructionArtifactForDeletion hkeyed.store hreturns, rfl,
      fun _ h ↦ (by cases h), ?_, fun _ h ↦ (by cases h)⟩
    intro claimed hclaimed
    rcases claimReconstructionArtifactForDeletion_cases hreturns with
      ⟨rfl, rfl⟩ | ⟨artifact, hmem, -, -, rfl, -⟩
    · exact .inl hclaimed
    · rcases List.mem_cons.1 hclaimed with rfl | hclaimed
      · exact .inr (List.mem_map.2 ⟨artifact, hmem, rfl⟩)
      · exact .inl hclaimed
  · rw [heq]
    exact systemRefines_same hkeyed

theorem System.refines (env : Env) {sys : System} (hkeyed : sys.Keyed) (action : Action) :
    ∃ given, SystemRefines env action given sys (sys.step env action) := by
  cases action with
  | acceptCommand now envelope =>
    exact ⟨none, systemRefines_ite _ hkeyed (fun _ h ↦ by cases h)
      fun _ _ h ↦ refines_acceptCommand hkeyed.store h⟩
  | claimJob now locks workerId => exact systemRefines_claimJob hkeyed locks workerId
  | extendLease now claim =>
    exact ⟨none, systemRefines_ite _ hkeyed (fun _ h hheld ↦ Option.some.inj h ▸ hheld)
      fun _ _ h ↦ refines_extendLease hkeyed.store h⟩
  | stageReconstructionArtifacts now claim objects =>
    exact ⟨none, systemRefines_ite _ hkeyed (fun _ h hheld ↦ Option.some.inj h ▸ hheld)
      fun _ _ h ↦ refines_stageReconstructionArtifacts hkeyed.store h⟩
  | stageResult now claim staging =>
    exact ⟨none, systemRefines_ite _ hkeyed (fun _ h hheld ↦ Option.some.inj h ▸ hheld)
      fun _ _ h ↦ refines_stageResult hkeyed.store h⟩
  | failJob now claim error =>
    exact ⟨none, systemRefines_ite _ hkeyed (fun _ h hheld ↦ Option.some.inj h ▸ hheld)
      fun _ _ h ↦ refines_failJob hkeyed.store h⟩
  | claimAnalytics now locked workerId =>
    exact ⟨none, systemRefines_commit hkeyed rfl rfl rfl rfl
      fun _ _ h ↦ refines_claimAnalytics hkeyed.store h⟩
  | completeAnalytics now outbox =>
    exact ⟨none, systemRefines_ite _ hkeyed (fun _ h ↦ by cases h)
      fun _ _ h ↦ refines_completeAnalytics hkeyed.store h⟩
  | retryAnalytics now outbox =>
    exact ⟨none, systemRefines_ite _ hkeyed (fun _ h ↦ by cases h)
      fun _ _ h ↦ refines_retryAnalytics hkeyed.store h⟩
  | claimEvent now locked workerId =>
    exact ⟨none, systemRefines_commit hkeyed rfl rfl rfl rfl
      fun _ _ h ↦ refines_claimEvent hkeyed.store h⟩
  | completeEvent event =>
    exact ⟨none, systemRefines_ite _ hkeyed (fun _ h ↦ by cases h)
      fun _ _ h ↦ refines_completeEvent hkeyed.store h⟩
  | retryEvent now event =>
    exact ⟨none, systemRefines_ite _ hkeyed (fun _ h ↦ by cases h)
      fun _ _ h ↦ refines_retryEvent hkeyed.store h⟩
  | claimReconstructionArtifactForDeletion now locked =>
    exact ⟨none, systemRefines_claimDeletion hkeyed locked⟩
  | completeReconstructionArtifactDeletion claimed =>
    refine ⟨none, ?_⟩
    simp only [System.step]
    by_cases hheld : claimed ∈ sys.deletions
    · rw [if_pos hheld]
      exact systemRefines_commit hkeyed rfl rfl rfl rfl fun _ _ h ↦
        refines_completeReconstructionArtifactDeletion hkeyed.store
          (hkeyed.deletions claimed hheld) h
    · rw [if_neg hheld]
      exact systemRefines_same hkeyed
  | retryReconstructionArtifactDeletion now claimed =>
    exact ⟨none, systemRefines_ite _ hkeyed (fun _ h ↦ by cases h)
      fun _ _ h ↦ refines_retryReconstructionArtifactDeletion hkeyed.store h⟩

/-- The claims of a case after a step. -/
theorem filter_given (given : Option ClaimedJob) (claims : List ClaimedJob) :
    (given.toList ++ claims).filter (fun claim ↦ decide (claim.id = id)) =
      claimsAfter id given (claims.filter fun claim ↦ decide (claim.id = id)) := by
  cases given with
  | none => rfl
  | some claim =>
    by_cases hid : claim.id = id
    · simp [claimsAfter, hid]
    · simp [claimsAfter, hid]

/-- Every case takes a step when the system does. -/
theorem System.Shows.step (env : Env) {sys : System} (hkeyed : sys.Keyed) (hshows : sys.Shows id c)
    (action : Action) :
    ∃ c', (sys.step env action).Shows id c' ∧ CaseStep env action c c' := by
  obtain ⟨given, h⟩ := System.refines env hkeyed action
  by_cases hsame : sys.step env action = sys
  · exact ⟨c, hsame.symm ▸ hshows, .same _ c⟩
  · obtain ⟨c', hshows', hcase, hclaims⟩ := h.store.step hshows.store (by
      intro claim hclaim hid
      rw [← hshows.claims, List.mem_filter, decide_eq_true_eq]
      exact ⟨(h.held claim hclaim).resolve_right hsame, hid⟩)
    refine ⟨c', ⟨hshows', ?_⟩, hcase⟩
    rw [h.claims, filter_given, hshows.claims, hclaims]

/-- A step keeps the keys. -/
theorem System.Keyed.step {sys : System} (hkeyed : sys.Keyed) (action : Action) :
    (sys.step env action).Keyed := by
  obtain ⟨given, h⟩ := System.refines env hkeyed action
  -- Every case of before is a case of after, so its job and its artifacts are still there.
  have hstep : ∀ {id c}, sys.store.Shows id c → c.claims =
      sys.claims.filter (fun claim ↦ decide (claim.id = id)) →
      ∃ c', (sys.step env action).store.Shows id c' ∧ CaseStep env action c c' := by
    intro id c hshows hclaims
    obtain ⟨c', hshows', hcase⟩ := System.Shows.step env hkeyed ⟨hshows, hclaims.symm⟩ action
    exact ⟨c', hshows'.store, hcase⟩
  refine ⟨h.store.keyed, ?_, ?_⟩
  · intro claim hclaim
    rw [h.claims, List.mem_append] at hclaim
    rcases hclaim with hclaim | hclaim
    · exact h.given_mem claim (by simpa using hclaim)
    · obtain ⟨c, hshows, hclaims⟩ := hkeyed.store.exists_shows (hkeyed.claims claim hclaim) _
      obtain ⟨c', hshows', -⟩ := hstep hshows hclaims
      exact List.mem_map.2 ⟨c'.job, hshows'.job_mem, hshows'.job_id⟩
  · intro claimed hclaimed
    have hkey : claimed.key ∈ sys.store.artifacts.map ReconstructionArtifact.key :=
      (h.deletions claimed hclaimed).elim (hkeyed.deletions claimed) id
    obtain ⟨artifact, hartifact, heq⟩ := List.mem_map.1 hkey
    obtain ⟨jobId, c, hshows, hclaims, hmem⟩ :=
      hkeyed.store.exists_shows_artifact hartifact fun jobId ↦
        sys.claims.filter fun claim ↦ decide (claim.id = jobId)
    obtain ⟨c', hshows', hcase⟩ := hstep hshows hclaims
    obtain ⟨artifact', hartifact', heq'⟩ := List.mem_map.1
      (hcase.artifacts_subset (List.mem_map_of_mem hmem))
    exact List.mem_map.2 ⟨artifact', (hshows'.mem_artifacts.1 hartifact').1, heq'.trans heq⟩

/-- A case that was not there before is the case of a command. -/
theorem System.Shows.new {sys : System} (hkeyed : sys.Keyed) {action : Action}
    (hshows : (sys.step env action).Shows id c)
    (hnew : id ∉ sys.store.captureJobs.map CaptureJob.id) :
    ∃ now hash envelope reconstructionId, c = newCase now hash envelope reconstructionId := by
  obtain ⟨given, h⟩ := System.refines env hkeyed action
  have hmem : id ∈ (sys.step env action).store.jobIds :=
    List.mem_map.2 ⟨c.job, hshows.store.job_mem, hshows.store.job_id⟩
  rcases h.store.jobs with hjobs | ⟨rfl, now, hash, envelope, hfresh, haccepted⟩
  · rw [hjobs] at hmem
    exact absurd hmem hnew
  · have hid : id = envelope.payload.captureRequestId := by
      rw [haccepted] at hmem
      change id ∈ (sys.store.captureJobs ++ [newCaptureJob now hash envelope]).map _ at hmem
      rw [List.map_append, List.mem_append] at hmem
      simpa [newCaptureJob] using hmem.resolve_left hnew
    have hclaims : c.claims = [] := by
      rw [← hshows.claims, h.claims, List.filter_eq_nil_iff]
      intro claim hclaim heq
      rw [← of_decide_eq_true heq] at hnew
      exact hnew (hkeyed.claims claim hclaim)
    have hcase : (sys.store.accepted now hash envelope).Shows _ _ :=
      shows_accepted hkeyed.store hfresh
    rw [← haccepted, ← hid] at hcase
    exact ⟨now, hash, envelope, sys.store.nextUuid, hshows.store.unique hcase hclaims⟩

/-- The rows of a capture request are one case. -/
theorem System.Shows.unique {sys : System} {c₁ c₂ : Case} (h₁ : sys.Shows id c₁)
    (h₂ : sys.Shows id c₂) : c₁ = c₂ :=
  h₁.store.unique h₂.store (h₁.claims.symm.trans h₂.claims)

end WebLens.Capture
