import WebLens.Capture.Machine
import WebLens.Lib.Sha256

/-!
# Expiry of reconstructions

A published reconstruction expires when the collector completes the deletion of an archive of its
reconstruction job, of whatever generation. It expires with its own archive exactly in the runs in
which no archive that an abandoned generation left behind is deleted while the reconstruction is
published.
-/

set_option autoImplicit false
set_option relaxedAutoImplicit false

namespace WebLens.Capture

open Lib Lib.Utf8 Lib.Transaction

variable {env : Env} {action : Action} {c c' : Case} {id : Uuid} {now : Instant} {sys : System}

/-- The artifact is the archive that the reconstruction was built with. -/
def ReconstructionArtifact.IsOwnArchive (job : ReconstructionJob)
    (artifact : ReconstructionArtifact) : Prop :=
  artifact.reconstructionJobId = job.id ∧ artifact.kind = .staticArchive ∧
    job.sourceLeaseGeneration = some artifact.generation

/-- The artifact is marked as deleted by the step. -/
def BecomesDeleted (s s' : Store) (artifact : ReconstructionArtifact) : Prop :=
  artifact ∈ s.artifacts ∧ artifact.state ≠ .deleted ∧
    ∃ artifact' ∈ s'.artifacts, artifact'.id = artifact.id ∧ artifact'.state = .deleted

/-- A published reconstruction that expires in the step does so with its own archive. -/
def ExpiresWithArchive (s s' : Store) : Prop :=
  ∀ job ∈ s.reconstructionJobs, ∀ job' ∈ s'.reconstructionJobs, job'.id = job.id →
    job.status.isPublished = true → job'.status = .expired →
      ∃ archive, archive.IsOwnArchive job ∧ BecomesDeleted s s' archive

/-- Deleting a staged archive of another generation does not change a published reconstruction. -/
def LeftoversAreHarmless (s s' : Store) : Prop :=
  ∀ artifact, BecomesDeleted s s' artifact → artifact.kind = .staticArchive →
    artifact.state = .staged → ∀ job ∈ s.reconstructionJobs,
      job.id = artifact.reconstructionJobId → job.status.isPublished = true →
        job.sourceLeaseGeneration ≠ some artifact.generation → job ∈ s'.reconstructionJobs

/-- A published reconstruction has its own archive, which is not deleted. -/
def ArchivesAreKept (s : Store) : Prop :=
  ∀ job ∈ s.reconstructionJobs, job.status.isPublished = true →
    (∃ archive ∈ s.artifacts, archive.IsOwnArchive job) ∧
      ∀ archive ∈ s.artifacts, archive.IsOwnArchive job → archive.state ≠ .deleted

/-- The action completes the deletion of an archive that an abandoned generation of a published
reconstruction left behind. -/
def System.DeletesLeftover (sys : System) (action : Action) : Prop :=
  ∃ claimed, action = .completeReconstructionArtifactDeletion claimed ∧
    claimed ∈ sys.deletions ∧ claimed.kind = .staticArchive ∧
    ∃ artifact ∈ sys.store.artifacts, artifact.isClaimedAs claimed = true ∧
      ∃ job ∈ sys.store.reconstructionJobs, job.id = claimed.reconstructionId ∧
        job.status.isPublished = true ∧ job.sourceLeaseGeneration ≠ some artifact.generation

/-! ### Steps -/

theorem System.Sound.archivesAreKept (h : sys.Sound) : ArchivesAreKept sys.store := by
  intro job hjob hpublished
  obtain ⟨c, hshows, rfl, hc⟩ := h.exists_case_reconstruction hjob
  obtain ⟨own, hown, hstatic, hlive, hsource⟩ := hc.stocked.own hpublished
  obtain ⟨hmem, hof⟩ := hshows.store.mem_artifacts.1 hown
  refine ⟨⟨own, hmem, hof, hstatic, hsource⟩, ?_⟩
  rintro archive harchive ⟨hof', hstatic', hsource'⟩
  have hslot : archive.slot = own.slot := by
    rw [ReconstructionArtifact.slot, ReconstructionArtifact.slot, hstatic, hstatic',
      Option.some.inj (hsource'.symm.trans hsource)]
  rw [Table.eq_of_key_eq hc.stocked.distinct (hshows.store.mem_artifacts.2 ⟨harchive, hof'⟩) hown
    hslot]
  rcases hlive with h | h <;> rw [h] <;> simp

/-- A published reconstruction changes only when an archive of it is deleted. -/
theorem CaseStep.reconstruction_of_isPublished (h : CaseStep env action c c') (hc : c.Sound)
    (hpublished : c.reconstruction.status.isPublished = true) :
    c'.reconstruction = c.reconstruction ∨ ∃ claimed artifact,
      action = .completeReconstructionArtifactDeletion claimed ∧ artifact ∈ c.artifacts ∧
        artifact.isClaimedAs claimed = true ∧ artifact.kind = .staticArchive ∧
        claimed.kind = .staticArchive ∧ artifact.delete ∈ c'.artifacts ∧
        c'.reconstruction = c.reconstruction.expire := by
  have hinactive : ¬ c.reconstruction.status.isActive = true := by
    intro hactive
    exact Case.Stocked.not_wasPublished_of_isActive hactive (.inl hpublished)
  have hheldBy : ∀ {claim : ClaimedJob}, c.job.isHeldBy claim = true → False := by
    intro claim hheld
    exact hinactive (hc.reconstructed.active.2 (.inr (CaptureJob.isHeldBy_iff.1 hheld).2.1))
  cases h with
  | exhausted messageId h => exact .inl (if_neg hinactive)
  | claimed messageId h => exact .inl (if_neg hinactive)
  | reclaimed messageId h => exact .inl (if_neg hinactive)
  | resultStaged snapshotId batchId messageId hclaim hheld hbatches hlimits hfinish =>
    exact (hheldBy hheld).elim
  | failed messageId hclaim hheld hattempts => exact (hheldBy hheld).elim
  | @artifactDeleted claimed _ artifact hmem hids hclaimed hkind =>
    unfold Case.expire
    split_ifs with hexpires
    · exact .inr ⟨claimed, artifact, rfl, hmem, hclaimed, hkind.trans hexpires.1, hexpires.1,
        Table.mem_update_of_sel hmem hclaimed, rfl⟩
    · exact .inl rfl
  | same | requeued | extended | artifactsStaged | retried | completed | artifactClaimed
  | artifactPostponed => exact .inl rfl

/-- A claimed deletion is completed whatever the generation of its artifact. -/
theorem returns_completeReconstructionArtifactDeletion {s : Store}
    {claimed : ClaimedReconstructionArtifact} {artifact : ReconstructionArtifact}
    (hmem : artifact ∈ s.artifacts) (hclaimed : artifact.isClaimedAs claimed = true) :
    Returns (completeReconstructionArtifactDeletion claimed) s ()
      ((s.artifactsMoved (ReconstructionArtifact.isClaimedAs claimed)
        ReconstructionArtifact.delete).reconstructionExpired claimed) := by
  have hrows : s.artifacts.countP (ReconstructionArtifact.isClaimedAs claimed) ≠ 0 :=
    (List.countP_pos_iff.2 ⟨artifact, hmem, hclaimed⟩).ne'
  simp only [completeReconstructionArtifactDeletion, returns_bind, returns_updateArtifacts,
    returns_require, exists_and_left, exists_eq_left, exists_const, and_assoc]
  refine ⟨hrows, ?_⟩
  unfold Store.reconstructionExpired
  by_cases hkind : claimed.kind = .staticArchive
  · rw [if_pos hkind, if_pos hkind]
    simp only [returns_bind, returns_updateReconstructionJobs, returns_pure, exists_and_left,
      exists_eq_left, and_assoc]
    exact ⟨trivial, rfl⟩
  · rw [if_neg hkind, if_neg hkind, returns_pure]
    exact ⟨rfl, rfl⟩

/-- A step that completes a deletion marks no other artifact than the claimed one. -/
theorem System.isClaimedAs_of_becomesDeleted (hkeyed : sys.store.Keyed)
    {claimed : ClaimedReconstructionArtifact} {artifact : ReconstructionArtifact}
    (h : BecomesDeleted sys.store
      (sys.step env (.completeReconstructionArtifactDeletion claimed)).store artifact) :
    artifact.isClaimedAs claimed = true := by
  obtain ⟨hmem, hstate, artifact', hmem', hid, hdeleted⟩ := h
  have hsame : artifact' ∈ sys.store.artifacts → False := by
    intro hold
    rw [Table.eq_of_key_eq hkeyed.artifacts hold hmem hid] at hdeleted
    exact hstate hdeleted
  by_cases hheld : claimed ∈ sys.deletions
  · simp only [System.step, if_pos hheld] at hmem'
    rcases commit_cases (completeReconstructionArtifactDeletion claimed) sys.store with
      ⟨u, s', heq, hreturns⟩ | ⟨e, heq⟩
    · rw [heq, (completeReconstructionArtifactDeletion_cases hreturns).2] at hmem'
      have hartifacts : ∀ s : Store, (s.reconstructionExpired claimed).artifacts = s.artifacts := by
        intro s
        unfold Store.reconstructionExpired
        split_ifs <;> rfl
      rw [hartifacts] at hmem'
      obtain ⟨old, hold, heq⟩ := Table.mem_update.1 hmem'
      by_cases hsel : old.isClaimedAs claimed = true
      · rw [if_pos hsel] at heq
        subst heq
        have hsame : old = artifact := Table.eq_of_key_eq hkeyed.artifacts hold hmem hid
        exact hsame ▸ hsel
      · rw [if_neg hsel] at heq
        exact (hsame (heq ▸ hold)).elim
    · rw [heq] at hmem'
      exact (hsame hmem').elim
  · simp only [System.step, if_neg hheld] at hmem'
    exact (hsame hmem').elim

/-- A published reconstruction of a run changes only when an archive of it is deleted. -/
theorem System.Sound.reconstruction_step (h : sys.Sound) (env : Env) (action : Action)
    {job : ReconstructionJob} (hjob : job ∈ sys.store.reconstructionJobs)
    (hpublished : job.status.isPublished = true) :
    job ∈ (sys.step env action).store.reconstructionJobs ∨
      job.expire ∈ (sys.step env action).store.reconstructionJobs ∧ ∃ claimed artifact,
        action = .completeReconstructionArtifactDeletion claimed ∧ claimed ∈ sys.deletions ∧
          claimed.kind = .staticArchive ∧ artifact ∈ sys.store.artifacts ∧
          artifact.isClaimedAs claimed = true ∧ artifact.reconstructionJobId = job.id ∧
          artifact.kind = .staticArchive ∧
          BecomesDeleted sys.store (sys.step env action).store artifact := by
  obtain ⟨c, hshows, rfl, hc⟩ := h.exists_case_reconstruction hjob
  obtain ⟨c', hshows', hstep⟩ := System.Shows.step env h.keyed hshows action
  have hmem' := hshows'.store.reconstruction_mem
  rcases hstep.reconstruction_of_isPublished hc hpublished with heq | ⟨claimed, artifact, rfl,
    hmem, hclaimed, hkind, hclaimedKind, hdelete, heq⟩
  · exact .inl (heq ▸ hmem')
  · by_cases hheld : claimed ∈ sys.deletions
    · obtain ⟨hartifact, hof⟩ := hshows.store.mem_artifacts.1 hmem
      refine .inr ⟨heq ▸ hmem', claimed, artifact, rfl, hheld, hclaimedKind, hartifact, hclaimed,
        hof, hkind, hartifact, ?_, artifact.delete, (hshows'.store.mem_artifacts.1 hdelete).1, rfl,
        rfl⟩
      simp only [ReconstructionArtifact.isClaimedAs, Bool.and_eq_true, Bool.or_eq_true,
        decide_eq_true_eq] at hclaimed
      rcases hclaimed.2 with hstate | hstate <;> rw [hstate] <;> simp
    · simp only [System.step, if_neg hheld]
      exact .inl hjob

/-- A step that deletes no leftover of a published reconstruction expires it with its archive
only. -/
theorem System.Sound.expires_of_not_deletesLeftover (h : sys.Sound)
    (hnot : ¬ sys.DeletesLeftover action) :
    ExpiresWithArchive sys.store (sys.step env action).store ∧
      LeftoversAreHarmless sys.store (sys.step env action).store := by
  have h' := h.step env action
  have hown : ∀ {job claimed artifact}, job ∈ sys.store.reconstructionJobs →
      job.status.isPublished = true → action = .completeReconstructionArtifactDeletion claimed →
      claimed ∈ sys.deletions → claimed.kind = .staticArchive → artifact ∈ sys.store.artifacts →
      artifact.isClaimedAs claimed = true → artifact.reconstructionJobId = job.id →
      job.sourceLeaseGeneration = some artifact.generation := by
    intro job claimed artifact hjob hpublished haction hheld hkind hmem hclaimed hof
    by_contra hne
    refine hnot ⟨claimed, haction, hheld, hkind, artifact, hmem, hclaimed, job, hjob, ?_,
      hpublished, hne⟩
    simp only [ReconstructionArtifact.isClaimedAs, Bool.and_eq_true, decide_eq_true_eq] at hclaimed
    exact hof.symm.trans hclaimed.1.2
  constructor
  · intro job hjob job' hjob' hid hpublished hexpired
    rcases h.reconstruction_step env action hjob hpublished with hsame | ⟨-, claimed, artifact,
      haction, hheld, hkind, hmem, hclaimed, hof, hstatic, hdeleted⟩
    · rw [Table.eq_of_key_eq h'.keyed.store.reconstructions hjob' hsame hid] at hexpired
      rw [hexpired] at hpublished
      cases hpublished
    · exact ⟨artifact, ⟨hof, hstatic, hown hjob hpublished haction hheld hkind hmem hclaimed hof⟩,
        hdeleted⟩
  · intro artifact hdeleted hstatic hstaged job hjob hid hpublished hne
    rcases h.reconstruction_step env action hjob hpublished with hsame | ⟨-, claimed, other,
      rfl, hheld, hkind, hmem, hclaimed, hof, -, -⟩
    · exact hsame
    · exact absurd (hown hjob hpublished rfl hheld hkind hdeleted.1
        (System.isClaimedAs_of_becomesDeleted h.keyed.store hdeleted) hid.symm) hne

/-- A step that deletes a leftover of a published reconstruction expires it, although its archive
is still there. -/
theorem System.Sound.not_expires_of_deletesLeftover (h : sys.Sound)
    (hleftover : sys.DeletesLeftover action) :
    ¬ ExpiresWithArchive sys.store (sys.step env action).store := by
  obtain ⟨claimed, rfl, hheld, hkind, artifact, hmem, hclaimed, job, hjob, hid, hpublished, hne⟩ :=
    hleftover
  intro hexpires
  have hmem' : job.expire ∈ (sys.step env
      (.completeReconstructionArtifactDeletion claimed)).store.reconstructionJobs := by
    simp only [System.step, if_pos hheld]
    rw [commit_ok_iff.2 (returns_completeReconstructionArtifactDeletion hmem hclaimed)]
    simp only [Store.reconstructionExpired, if_pos hkind]
    refine Table.mem_update_of_sel hjob ?_
    rw [decide_eq_true hid, hpublished]
    rfl
  obtain ⟨archive, ⟨-, -, hsource⟩, hdeleted⟩ := hexpires job hjob _ hmem' rfl hpublished rfl
  have harchive := System.isClaimedAs_of_becomesDeleted h.keyed.store hdeleted
  simp only [ReconstructionArtifact.isClaimedAs, Bool.and_eq_true, decide_eq_true_eq]
    at hclaimed harchive
  apply hne
  rw [← Table.eq_of_key_eq h.keyed.store.artifacts hdeleted.1 hmem
    (harchive.1.1.trans hclaimed.1.1.symm)]
  exact hsource

/-! ### Runs -/

/-- The reconstructions of a run expire with their own archives only. -/
def ExpiryHolds (env : Env) (actions : List Action) : Prop :=
  (∀ before action after, actions = before ++ action :: after →
    ExpiresWithArchive (System.after env before).store
        ((System.after env before).step env action).store ∧
      LeftoversAreHarmless (System.after env before).store
        ((System.after env before).step env action).store) ∧
  ∀ before after, actions = before ++ after → ArchivesAreKept (System.after env before).store

/-- Reconstructions expire with their own archives exactly in the runs in which no leftover of a
published reconstruction is deleted. -/
theorem expiry_iff (env : Env) (actions : List Action) :
    ExpiryHolds env actions ↔ ∀ before action after, actions = before ++ action :: after →
      ¬ (System.after env before).DeletesLeftover action := by
  constructor
  · rintro ⟨hsteps, -⟩ before action after heq hleftover
    exact (System.sound_after env before).not_expires_of_deletesLeftover hleftover
      (hsteps before action after heq).1
  · intro hnot
    constructor
    · intro before action after heq
      exact (System.sound_after env before).expires_of_not_deletesLeftover
        (hnot before action after heq)
    · intro before _ _
      exact (System.sound_after env before).archivesAreKept

/-! ### An archive that was left behind -/

/-- The texts of the payloads are stored and not read again by the runs below. -/
def Env.sample : Env where
  stringifyCommand := fun _ ↦ ofText "\x7b\x7d"
  stringifyAnalytics := fun _ ↦ ofText "\x7b\x7d"
  sha256 := Sha256.sum
  toUpperCase := fun c ↦ [c.toUpper]
  jitter := fun _ ↦ 0

/-- A command for a capture of `https://example.com/`. -/
def CaptureCommandEnvelope.sample : CaptureCommandEnvelope where
  messageId := 201
  aggregateType := "CAPTURE"
  aggregateId := 202
  aggregateVersion := 1
  messageType := "CAPTURE_REQUESTED"
  contractVersion := 1
  correlationId := 203
  payload := {
    captureRequestId := 202, ownerId := 204, scanId := 205, pageId := 206
    targetUrl := "https://example.com/", viewportWidth := 1365, viewportHeight := 768
    timeoutSeconds := 30, maxTotalBytes := 52_428_800, maxResourceBytes := 10_485_760
    maxNetworkRequests := 500, maxResourceBodies := 100, measurementProfile := "desktop-lab-v1" }

/-- The claim of the sample job for an attempt. -/
def ClaimedJob.sample (attempt : ℕ) : ClaimedJob where
  id := 202
  ownerId := 204
  scanId := 205
  pageId := 206
  correlationId := 203
  payload := CaptureCommandEnvelope.sample.payload
  leaseOwner := 207
  leaseGeneration := attempt
  attemptCount := attempt

/-- A stored object of one byte. -/
def StoredObject.sample (key contentType : String) : StoredObject where
  bucket := "weblens"
  key := key
  bytes := 1
  sha256 := List.replicate 32 0
  contentType := contentType

/-- The archive and the manifest under a common prefix. -/
def ReconstructionObjects.sample (keyPrefix : String) : ReconstructionObjects where
  archive := .sample (keyPrefix ++ ".zip") "application/zip"
  manifest := .sample (keyPrefix ++ ".json") "application/json"

/-- A result with the given resources and clone. -/
def Staging.sample (resources : List ResourceObject) (objects : ReconstructionObjects) :
    Staging where
  result := {
    finalUrl := "https://example.com/", rendered := [], diff := [], performance := []
    network := [], browserVersion := "1", observedAt := 0, totalTransferBytes := 0
    reconstruction := {
      status := .published, discoveredCount := 1, packagedCount := 1, skippedCount := 0
      inputBytes := 1, archiveBytes := some 1, completenessCode := some "COMPLETE"
      failureCode := none } }
  html := .sample "page.html" "text/html"
  screenshot := .sample "page.png" "image/png"
  resources := resources
  reconstruction := some objects

/-- The first attempt fails after it staged its clone, the second one publishes, and the collector
claims the archive of the first. -/
def leftoverRun : List Action := [
  .acceptCommand 0 .sample,
  .claimJob 0 {} 207,
  .stageReconstructionArtifacts 1 (.sample 1) (.sample "first"),
  .failJob 2 (.sample 1) "Browser crashed",
  .claimJob (5 * second) {} 207,
  .stageReconstructionArtifacts (6 * second) (.sample 2) (.sample "second"),
  .stageResult (7 * second) (.sample 2) (.sample [] (.sample "second")),
  .claimReconstructionArtifactForDeletion (hour + second) []]

/-- The deletion of the archive that the first attempt left behind. -/
def leftoverDeletion : ClaimedReconstructionArtifact where
  id := 3
  reconstructionId := 1
  kind := .staticArchive
  object := (ReconstructionObjects.sample "first").archive

/-- The collector deletes the archive of the first attempt, and the clone of the second expires. -/
theorem leftover_expires_reconstruction : ¬ ExpiryHolds .sample
    (leftoverRun ++ [.completeReconstructionArtifactDeletion leftoverDeletion]) := by
  intro h
  have hleftover : (System.after .sample leftoverRun).DeletesLeftover
      (.completeReconstructionArtifactDeletion leftoverDeletion) :=
    ⟨leftoverDeletion, rfl, by decide +kernel, rfl, by decide +kernel⟩
  exact (System.sound_after .sample leftoverRun).not_expires_of_deletesLeftover hleftover
    (h.1 leftoverRun _ [] rfl).1

end WebLens.Capture
