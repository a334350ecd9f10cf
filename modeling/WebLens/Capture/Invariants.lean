import WebLens.Capture.Refinement

/-!
# Leases and reconstructions of a case

What every step of a case keeps: the attempts are the claims that were given, and the reconstruction
is active while the capture job is.
-/

set_option autoImplicit false
set_option relaxedAutoImplicit false

namespace WebLens.Capture

open Lib Lib.Utf8 Lib.Transaction

variable {env : Env} {action : Action} {c c' : Case} {id : Uuid} {now : Instant}

/-! ### Leases -/

/-- The attempts of a case are its claims, numbered, and there are at most three. -/
structure Case.Leased (c : Case) : Prop where
  generation : c.job.leaseGeneration = c.job.attemptCount
  claims : c.claims.length = c.job.attemptCount
  attempts_le : c.job.attemptCount ≤ 3
  attempts_lt : c.job.status = .queued → c.job.attemptCount < 3
  owners : ∀ claim ∈ c.claims, claim.ownerId = c.job.ownerId

theorem Case.Leased.new {hash : ByteString} {envelope : CaptureCommandEnvelope}
    {reconstructionId : Uuid} : (newCase now hash envelope reconstructionId).Leased where
  generation := rfl
  claims := rfl
  attempts_le := Nat.zero_le 3
  attempts_lt _ := Nat.zero_lt_succ 2
  owners _ h := by cases h

theorem Case.Leased.claim (hc : c.Leased) (hattempts : c.job.attemptCount < 3)
    {workerId messageId : Uuid} : (c.claim now workerId messageId).Leased where
  generation := congrArg (· + 1) hc.generation
  claims := congrArg (· + 1) hc.claims
  attempts_le := hattempts
  attempts_lt h := by cases h
  owners claim hclaim := by
    rcases List.mem_cons.1 hclaim with rfl | hclaim
    · rfl
    · exact hc.owners claim hclaim

theorem Case.Leased.requeue (hc : c.Leased) (hattempts : c.job.attemptCount < 3)
    {availableAt : Instant} : (c.requeue availableAt).Leased :=
  { hc with attempts_lt := fun _ ↦ hattempts }

theorem CaptureJob.attemptCount_lt_of_isExpired {job : CaptureJob} (h : job.isExpired now = true) :
    job.attemptCount < 3 := by
  simp only [CaptureJob.isExpired, Bool.and_eq_true, decide_eq_true_eq] at h
  exact h.2

theorem CaptureJob.attemptCount_lt_of_isAvailable {job : CaptureJob}
    (h : job.isAvailable now = true) : job.attemptCount < 3 := by
  simp only [CaptureJob.isAvailable, Bool.and_eq_true, decide_eq_true_eq] at h
  exact h.2

theorem CaseStep.leased (h : CaseStep env action c c') (hc : c.Leased) : c'.Leased := by
  cases h with
  | same => exact hc
  | exhausted messageId h => exact { hc with attempts_lt := fun h ↦ (by cases h) }
  | requeued h => exact hc.requeue (CaptureJob.attemptCount_lt_of_isExpired h)
  | claimed messageId h => exact hc.claim (CaptureJob.attemptCount_lt_of_isAvailable h)
  | reclaimed messageId h =>
    have hattempts := CaptureJob.attemptCount_lt_of_isExpired h
    exact (hc.requeue hattempts).claim hattempts
  | extended hheld => exact { hc with }
  | artifactsStaged archiveId manifestId hheld hruns hfresh => exact { hc with }
  | @resultStaged now claim staging _ c₁ snapshotId batchId messageId hclaim hheld hbatches hlimits hfinish =>
    have hc₁ : c₁.Leased := by
      cases hfinish <;> exact { hc with }
    exact { hc₁ with attempts_lt := fun h ↦ (by cases h) }
  | retried availableAt hheld hattempts => exact { hc with attempts_lt := fun _ ↦ hattempts }
  | failed messageId hclaim hheld hattempts =>
    exact { hc with attempts_lt := fun h ↦ (by cases h) }
  | completed messageId h => exact { hc with attempts_lt := fun h ↦ (by cases h) }
  | artifactClaimed artifact hmem hids hstate hdue => exact { hc with }
  | @artifactDeleted claimed _ artifact hmem hids hclaimed hkind =>
    unfold Case.expire
    split_ifs <;> exact { hc with }
  | artifactPostponed => exact { hc with }

/-! ### Reconstructions -/

/-- A reconstruction is active while its capture job is, and runs for the last attempt. -/
structure Case.Reconstructed (c : Case) : Prop where
  owner : c.reconstruction.ownerId = c.job.ownerId
  captureJobId : c.reconstruction.captureJobId = c.job.id
  active : c.reconstruction.status.isActive = true ↔
    c.job.status = .queued ∨ c.job.status = .rendering
  rendering : c.job.status = .rendering → c.reconstruction.status = .running
  running : c.reconstruction.status = .running →
    c.reconstruction.sourceLeaseGeneration = some c.job.leaseGeneration ∧ 1 ≤ c.job.leaseGeneration

theorem Case.Reconstructed.new {hash : ByteString} {envelope : CaptureCommandEnvelope}
    {reconstructionId : Uuid} : (newCase now hash envelope reconstructionId).Reconstructed where
  owner := rfl
  captureJobId := rfl
  active := iff_of_true rfl (.inl rfl)
  rendering h := by cases h
  running h := by cases h

/-- A job that is over takes its active reconstruction with it. -/
theorem Case.Reconstructed.fail (hc : c.Reconstructed) (job : CaptureJob)
    (hid : job.id = c.job.id) (howner : job.ownerId = c.job.ownerId)
    (hstatus : job.status = .failed) :
    (Case.failReconstruction { c with job := job }).Reconstructed := by
  have hinactive : (Case.failReconstruction { c with job := job }).reconstruction.status.isActive =
      false := by
    unfold Case.failReconstruction
    dsimp only
    split_ifs with hactive
    · rfl
    · exact Bool.eq_false_iff.2 hactive
  have hsame : (Case.failReconstruction { c with job := job }).reconstruction.key =
      c.reconstruction.key := by
    unfold Case.failReconstruction
    dsimp only
    split_ifs <;> rfl
  constructor
  · exact (congrArg Prod.snd hsame).trans (hc.owner.trans howner.symm)
  · exact (congrArg Prod.fst hsame).trans (hc.captureJobId.trans hid.symm)
  · refine iff_of_false (Bool.eq_false_iff.1 hinactive) ?_
    change ¬ (job.status = _ ∨ job.status = _)
    rw [hstatus]
    rintro (h | h) <;> cases h
  · intro h
    change job.status = _ at h
    rw [hstatus] at h
    cases h
  · intro h
    rw [h] at hinactive
    cases hinactive

/-- A job that waits again keeps its reconstruction running. -/
theorem Case.Reconstructed.requeue (hc : c.Reconstructed) (hstatus : c.job.status = .rendering)
    (availableAt : Instant) (code : Option String) :
    Case.Reconstructed { c with job := c.job.requeue availableAt code } where
  owner := hc.owner
  captureJobId := hc.captureJobId
  active := iff_of_true (hc.active.2 (.inr hstatus)) (.inl rfl)
  rendering h := by cases h
  running := hc.running

theorem Case.Reconstructed.claim (hc : c.Reconstructed) (hstatus : c.job.status = .queued)
    (workerId messageId : Uuid) : (c.claim now workerId messageId).Reconstructed := by
  have hactive := hc.active.2 (.inl hstatus)
  unfold Case.claim
  dsimp only
  rw [if_pos hactive]
  exact {
    owner := hc.owner
    captureJobId := hc.captureJobId
    active := iff_of_true rfl (.inr rfl)
    rendering := fun _ ↦ rfl
    running := fun _ ↦ ⟨rfl, Nat.succ_pos _⟩ }

theorem CaptureJob.isHeldBy_iff {claim : ClaimedJob} {job : CaptureJob} :
    job.isHeldBy claim = true ↔ job.id = claim.id ∧ job.status = .rendering ∧
      job.leaseOwner = some claim.leaseOwner ∧ job.leaseGeneration = claim.leaseGeneration := by
  simp only [CaptureJob.isHeldBy, Bool.and_eq_true, decide_eq_true_eq, and_assoc]

/-- The reconstruction of a held job runs for the claim that holds it. -/
theorem Case.Reconstructed.runsFor (hc : c.Reconstructed) (hleased : c.Leased) {claim : ClaimedJob}
    (hclaim : claim ∈ c.claims) (hheld : c.job.isHeldBy claim = true) :
    c.reconstruction.runsFor claim = true := by
  obtain ⟨hid, hstatus, -, hgeneration⟩ := CaptureJob.isHeldBy_iff.1 hheld
  have hrunning := hc.rendering hstatus
  simp only [ReconstructionJob.runsFor, Bool.and_eq_true, decide_eq_true_eq]
  exact ⟨⟨⟨hc.captureJobId.trans hid, hc.owner.trans (hleased.owners claim hclaim).symm⟩,
    hrunning⟩, hgeneration ▸ (hc.running hrunning).1⟩

theorem terminalStatus_isActive (artifactsPublished : Bool) (build : ReconstructionBuild) :
    (terminalStatus artifactsPublished build).isActive = false := by
  unfold terminalStatus BuildStatus.toReconstructionStatus
  split_ifs
  · cases build.status <;> rfl
  · rfl

theorem Case.Reconstructed.finish (hc : c.Reconstructed) {claim : ClaimedJob} {staging : Staging}
    {snapshotId : Uuid} (hruns : c.reconstruction.runsFor claim = true)
    (hfinish : CaseFinish now claim snapshotId staging c c') :
    c'.reconstruction.ownerId = c.job.ownerId ∧ c'.reconstruction.captureJobId = c.job.id ∧
      c'.reconstruction.status.isActive = false := by
  cases hfinish with
  | absent h =>
    rw [hruns] at h
    cases h
  | unpublished h =>
    exact ⟨hc.owner, hc.captureJobId,
      terminalStatus_isActive false staging.result.reconstruction⟩
  | published objects h hobjects hbuild hready =>
    exact ⟨hc.owner, hc.captureJobId, terminalStatus_isActive
      (decide ((c.staged claim).length = 2)) staging.result.reconstruction⟩

theorem CaseStep.reconstructed (h : CaseStep env action c c') (hleased : c.Leased)
    (hc : c.Reconstructed) : c'.Reconstructed := by
  cases h with
  | same => exact hc
  | exhausted messageId h =>
    have hc₁ := hc.fail (c.job.fail "CAPTURE_RETRIES_EXHAUSTED"
      "Capture lease expired after bounded retries") rfl rfl rfl
    exact { hc₁ with }
  | requeued h =>
    simp only [CaptureJob.isExpired, Bool.and_eq_true, decide_eq_true_eq] at h
    exact hc.requeue h.1.1 _ _
  | claimed messageId h =>
    simp only [CaptureJob.isAvailable, Bool.and_eq_true, decide_eq_true_eq] at h
    exact hc.claim h.1.1 _ _
  | @reclaimed now _ workerId _ messageId h =>
    simp only [CaptureJob.isExpired, Bool.and_eq_true, decide_eq_true_eq] at h
    have hc₁ : (c.requeue now).Reconstructed := hc.requeue h.1.1 _ _
    exact hc₁.claim rfl _ _
  | extended hheld => exact { hc with }
  | artifactsStaged archiveId manifestId hheld hruns hfresh => exact { hc with }
  | @resultStaged now claim staging _ c₁ snapshotId batchId messageId hclaim hheld hbatches hlimits hfinish =>
    obtain ⟨howner, hid, hinactive⟩ := hc.finish (hc.runsFor hleased hclaim hheld) hfinish
    have hjob := hfinish.job_eq
    constructor
    · change c₁.reconstruction.ownerId = c₁.job.ownerId
      rw [hjob, howner]
    · change c₁.reconstruction.captureJobId = c₁.job.id
      rw [hjob, hid]
    · refine iff_of_false (Bool.eq_false_iff.1 hinactive) ?_
      rintro (h | h) <;> cases h
    · intro h
      cases h
    · intro h
      change c₁.reconstruction.status = .running at h
      rw [h] at hinactive
      cases hinactive
  | retried availableAt hheld hattempts =>
    exact hc.requeue (CaptureJob.isHeldBy_iff.1 hheld).2.1 _ _
  | @failed now claim error _ messageId hclaim hheld hattempts =>
    have hc₁ := hc.fail (c.job.fail (boundedErrorCode env error)
      "Capture failed after bounded retries") rfl rfl rfl
    exact { hc₁ with }
  | completed messageId h =>
    have hinactive : ¬ c.reconstruction.status.isActive = true := by
      rw [hc.active, h]
      rintro (h | h) <;> cases h
    exact {
      owner := hc.owner
      captureJobId := hc.captureJobId
      active := iff_of_false hinactive (by rintro (h | h) <;> cases h)
      rendering := fun h ↦ (by cases h)
      running := hc.running }
  | artifactClaimed artifact hmem hids hstate hdue => exact { hc with }
  | @artifactDeleted claimed _ artifact hmem hids hclaimed hkind =>
    unfold Case.expire
    split_ifs with hexpires
    · have hinactive : ¬ c.reconstruction.status.isActive = true := by
        have hpublished : c.reconstruction.status.isPublished = true := hexpires.2
        cases hstatus : c.reconstruction.status <;> rw [hstatus] at hpublished <;>
          simp_all [ReconstructionStatus.isPublished, ReconstructionStatus.isActive]
      rw [hc.active] at hinactive
      exact {
        owner := hc.owner
        captureJobId := hc.captureJobId
        active := iff_of_false (fun h ↦ by cases h) hinactive
        rendering := fun h ↦ absurd (.inr h) hinactive
        running := fun h ↦ (by cases h) }
    · exact { hc with }
  | artifactPostponed => exact { hc with }

end WebLens.Capture
