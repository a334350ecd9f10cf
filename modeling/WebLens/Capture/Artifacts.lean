import WebLens.Capture.Invariants
import Mathlib.Data.List.Perm.Subperm

/-!
# Artifacts of a case

A generation stages at most one archive and one manifest. Artifacts are published by the result of
their own generation only, both at once, and the archive of a published reconstruction is not
deleted.
-/

set_option autoImplicit false
set_option relaxedAutoImplicit false

namespace WebLens.Capture

open Lib Lib.Utf8 Lib.Transaction

variable {env : Env} {action : Action} {c c' : Case} {id : Uuid} {now : Instant}

/-- Whether the artifact was published, and not deleted since. -/
def ReconstructionArtifact.isLive (artifact : ReconstructionArtifact) : Prop :=
  artifact.state = .published ∨ artifact.state = .deletePending

/-- Whether a reconstruction was published, even if it expired since. -/
def ReconstructionStatus.wasPublished (status : ReconstructionStatus) : Prop :=
  status.isPublished = true ∨ status = .expired

/-- What distinguishes the artifacts of a reconstruction. -/
def ReconstructionArtifact.slot (artifact : ReconstructionArtifact) : ArtifactKind × ℕ :=
  (artifact.kind, artifact.generation)

/-- The artifacts of a case are told apart by kind and generation, those that were published are of
the generation that the reconstruction was built by, and a published one has its archive. -/
structure Case.Stocked (c : Case) : Prop where
  of : ∀ artifact ∈ c.artifacts, artifact.reconstructionJobId = c.reconstruction.id ∧
    artifact.ownerId = c.reconstruction.ownerId
  distinct : (c.artifacts.map ReconstructionArtifact.slot).Nodup
  generation_le : ∀ artifact ∈ c.artifacts, artifact.generation ≤ c.job.leaseGeneration
  live : ∀ artifact ∈ c.artifacts, artifact.isLive → c.reconstruction.status.wasPublished ∧
    c.reconstruction.sourceLeaseGeneration = some artifact.generation
  own : c.reconstruction.status.isPublished = true → ∃ archive ∈ c.artifacts,
    archive.kind = .staticArchive ∧ archive.isLive ∧
      c.reconstruction.sourceLeaseGeneration = some archive.generation

namespace Case.Stocked

theorem new {hash : ByteString} {envelope : CaptureCommandEnvelope} {reconstructionId : Uuid} :
    (newCase now hash envelope reconstructionId).Stocked where
  of _ h := by cases h
  distinct := List.nodup_nil
  generation_le _ h := by cases h
  live _ h := by cases h
  own h := by cases h

/-! ### The two artifacts of a generation -/

theorem staged_slots (hc : c.Stocked) (claim : ClaimedJob) :
    ((c.staged claim).map ReconstructionArtifact.kind).Nodup := by
  have hslots : ((c.staged claim).map ReconstructionArtifact.slot).Nodup :=
    hc.distinct.sublist (List.filter_sublist.map _)
  rw [List.Nodup, List.pairwise_map] at hslots ⊢
  refine hslots.imp_of_mem fun {first second} hfirst hsecond hne heq ↦ hne ?_
  have hgeneration : ∀ artifact ∈ c.staged claim, artifact.generation = claim.leaseGeneration := by
    intro artifact hartifact
    have h := (List.mem_filter.1 hartifact).2
    simp only [ReconstructionArtifact.isStagedFor, Bool.and_eq_true, decide_eq_true_eq] at h
    exact h.1.2
  rw [ReconstructionArtifact.slot, ReconstructionArtifact.slot, heq, hgeneration first hfirst,
    hgeneration second hsecond]

/-- Two artifacts that are staged for a claim are all there can be. -/
theorem staged_length (hc : c.Stocked) {claim : ClaimedJob} {p : ReconstructionArtifact → Bool}
    (h : (c.staged claim).countP p = 2) : (c.staged claim).length = 2 := by
  have hle : ((c.staged claim).map ReconstructionArtifact.kind).length ≤
      [ArtifactKind.staticArchive, .manifest].length := by
    refine (List.subperm_of_subset (hc.staged_slots claim) ?_).length_le
    intro kind _
    cases kind <;> simp
  rw [List.length_map] at hle
  exact le_antisymm hle (h ▸ List.countP_le_length)

/-- Of two artifacts that are staged for a claim one is an archive and one is a manifest. -/
theorem exists_staged (hc : c.Stocked) {claim : ClaimedJob} (h : (c.staged claim).length = 2) :
    ∃ archive manifest, archive.kind = .staticArchive ∧ manifest.kind = .manifest ∧
      ∀ artifact, artifact ∈ c.staged claim ↔ artifact = archive ∨ artifact = manifest := by
  obtain ⟨first, second, heq⟩ := List.length_eq_two.1 h
  have hkinds := hc.staged_slots claim
  rw [heq] at hkinds ⊢
  have hne : first.kind ≠ second.kind := by simpa using hkinds
  cases hfirst : first.kind with
  | staticArchive =>
    cases hsecond : second.kind with
    | staticArchive => exact absurd (hfirst.trans hsecond.symm) hne
    | manifest => exact ⟨first, second, hfirst, hsecond, by simp⟩
  | manifest =>
    cases hsecond : second.kind with
    | staticArchive =>
      refine ⟨second, first, hsecond, hfirst, fun artifact ↦ ?_⟩
      rw [List.mem_pair]
      exact or_comm
    | manifest => exact absurd (hfirst.trans hsecond.symm) hne

/-! ### Steps -/

/-- Steps that leave the reconstruction and its artifacts alone. -/
theorem keep (hc : c.Stocked) (hartifacts : c'.artifacts = c.artifacts)
    (hreconstruction : c'.reconstruction = c.reconstruction)
    (hgeneration : c.job.leaseGeneration ≤ c'.job.leaseGeneration) : c'.Stocked where
  of := by
    rw [hartifacts, hreconstruction]
    exact hc.of
  distinct := hartifacts ▸ hc.distinct
  generation_le artifact hartifact :=
    (hc.generation_le artifact (hartifacts ▸ hartifact)).trans hgeneration
  live := by
    rw [hartifacts, hreconstruction]
    exact hc.live
  own := by
    rw [hartifacts, hreconstruction]
    exact hc.own

/-- Steps of a reconstruction that was never published, and is not by the step. -/
theorem keep_of_not (hc : c.Stocked) (hartifacts : c'.artifacts = c.artifacts)
    (hid : c'.reconstruction.id = c.reconstruction.id)
    (howner : c'.reconstruction.ownerId = c.reconstruction.ownerId)
    (hgeneration : c.job.leaseGeneration ≤ c'.job.leaseGeneration)
    (hbefore : ¬ c.reconstruction.status.wasPublished)
    (hafter : c'.reconstruction.status.isPublished = false) : c'.Stocked where
  of := by
    rw [hartifacts, hid, howner]
    exact hc.of
  distinct := hartifacts ▸ hc.distinct
  generation_le artifact hartifact :=
    (hc.generation_le artifact (hartifacts ▸ hartifact)).trans hgeneration
  live artifact hartifact hlive :=
    absurd (hc.live artifact (hartifacts ▸ hartifact) hlive).1 hbefore
  own h := by
    rw [hafter] at h
    cases h

theorem not_wasPublished_of_isActive {status : ReconstructionStatus}
    (h : status.isActive = true) : ¬ status.wasPublished := by
  cases status <;> simp_all [ReconstructionStatus.isActive, ReconstructionStatus.wasPublished,
    ReconstructionStatus.isPublished]

/-- A job that is over. -/
theorem fail (hc : c.Stocked) (job : CaptureJob)
    (hgeneration : job.leaseGeneration = c.job.leaseGeneration) :
    (Case.failReconstruction { c with job := job }).Stocked := by
  by_cases hactive : c.reconstruction.status.isActive = true
  · have hreconstruction : (Case.failReconstruction { c with job := job }).reconstruction =
        c.reconstruction.fail := if_pos hactive
    refine hc.keep_of_not rfl ?_ ?_ hgeneration.ge (not_wasPublished_of_isActive hactive) ?_ <;>
      rw [hreconstruction] <;> rfl
  · exact hc.keep rfl (if_neg hactive) hgeneration.ge

theorem claim (hc : c.Stocked) (workerId messageId : Uuid) :
    (c.claim now workerId messageId).Stocked := by
  by_cases hactive : c.reconstruction.status.isActive = true
  · have hreconstruction : (c.claim now workerId messageId).reconstruction =
        c.reconstruction.start (c.job.leaseGeneration + 1) := if_pos hactive
    refine hc.keep_of_not rfl ?_ ?_ (Nat.le_succ _) (not_wasPublished_of_isActive hactive) ?_ <;>
      rw [hreconstruction] <;> rfl
  · exact hc.keep rfl (if_neg hactive) (Nat.le_succ _)

/-- Artifacts are staged for the generation that holds the job. -/
theorem stageArtifacts (hc : c.Stocked) {claim : ClaimedJob} {objects : ReconstructionObjects}
    {archiveId manifestId : Uuid} (hheld : c.job.isHeldBy claim = true)
    (hruns : c.reconstruction.runsFor claim = true)
    (hfresh : ∀ artifact ∈ c.artifacts, artifact.generation ≠ claim.leaseGeneration) :
    (c.stageArtifacts now claim objects archiveId manifestId).Stocked := by
  have hgeneration := (CaptureJob.isHeldBy_iff.1 hheld).2.2.2
  simp only [ReconstructionJob.runsFor, Bool.and_eq_true, decide_eq_true_eq] at hruns
  constructor
  · intro artifact hartifact
    rcases List.mem_append.1 hartifact with hartifact | hartifact
    · exact hc.of artifact hartifact
    · rcases List.mem_pair.1 hartifact with rfl | rfl
      · exact ⟨rfl, hruns.1.1.2.symm⟩
      · exact ⟨rfl, hruns.1.1.2.symm⟩
  · unfold Case.stageArtifacts
    rw [List.map_append, List.nodup_append]
    refine ⟨hc.distinct, ?_, ?_⟩
    · simp [ReconstructionArtifact.slot, stagedArtifact]
    · rintro slot hslot other hother rfl
      obtain ⟨artifact, hartifact, hslot⟩ := List.mem_map.1 hslot
      apply hfresh artifact hartifact
      have hgenerations : ∀ other ∈ [(ArtifactKind.staticArchive, claim.leaseGeneration),
          (.manifest, claim.leaseGeneration)], other.2 = claim.leaseGeneration := by simp
      rw [← hgenerations slot hother, ← hslot]
      rfl
  · intro artifact hartifact
    rcases List.mem_append.1 hartifact with hartifact | hartifact
    · exact hc.generation_le artifact hartifact
    · rcases List.mem_pair.1 hartifact with rfl | rfl
      · exact hgeneration.ge
      · exact hgeneration.ge
  · intro artifact hartifact hlive
    rcases List.mem_append.1 hartifact with hartifact | hartifact
    · exact hc.live artifact hartifact hlive
    · rcases List.mem_pair.1 hartifact with rfl | rfl <;> rcases hlive with h | h <;> cases h
  · intro hpublished
    change c.reconstruction.status.isPublished = true at hpublished
    rw [hruns.1.2] at hpublished
    cases hpublished

/-- Changes of artifacts that keep the live ones of a published reconstruction. -/
theorem moveArtifact (hc : c.Stocked) (sel : ReconstructionArtifact → Bool)
    (set : ReconstructionArtifact → ReconstructionArtifact)
    (hset : ∀ artifact, (set artifact).slot = artifact.slot ∧
      (set artifact).reconstructionJobId = artifact.reconstructionJobId ∧
        (set artifact).ownerId = artifact.ownerId)
    (hlive : ∀ artifact ∈ c.artifacts, sel artifact = true → (set artifact).isLive →
      artifact.isLive)
    (hown : c.reconstruction.status.isPublished = true → ∀ artifact ∈ c.artifacts,
      sel artifact = true → artifact.kind = .staticArchive → artifact.isLive →
        (set artifact).isLive) : (c.moveArtifact sel set).Stocked := by
  have hkind : ∀ artifact, (set artifact).kind = artifact.kind :=
    fun artifact ↦ congrArg Prod.fst (hset artifact).1
  have hgeneration : ∀ artifact, (set artifact).generation = artifact.generation :=
    fun artifact ↦ congrArg Prod.snd (hset artifact).1
  constructor
  · refine Table.forall_update hc.of fun artifact hartifact _ ↦ ?_
    rw [(hset artifact).2.1, (hset artifact).2.2]
    exact hc.of artifact hartifact
  · unfold Case.moveArtifact
    rw [Table.map_update _ fun artifact _ _ ↦ (hset artifact).1]
    exact hc.distinct
  · refine Table.forall_update hc.generation_le fun artifact hartifact _ ↦ ?_
    rw [hgeneration]
    exact hc.generation_le artifact hartifact
  · refine Table.forall_update hc.live fun artifact hartifact hsel h ↦ ?_
    rw [hgeneration]
    exact hc.live artifact hartifact (hlive artifact hartifact hsel h)
  · intro hpublished
    obtain ⟨archive, harchive, hstatic, hliveArchive, hsource⟩ := hc.own hpublished
    by_cases hsel : sel archive = true
    · refine ⟨set archive, Table.mem_update_of_sel harchive hsel, (hkind archive).trans hstatic,
        hown hpublished archive harchive hsel hstatic hliveArchive, ?_⟩
      rw [hgeneration]
      exact hsource
    · exact ⟨archive, Table.mem_update_of_not harchive (Bool.eq_false_iff.2 hsel), hstatic,
        hliveArchive, hsource⟩

theorem isPublished_terminalStatus {build : ReconstructionBuild} (h : build.status ≠ .failed) :
    (terminalStatus true build).isPublished = true := by
  unfold terminalStatus
  rw [Bool.true_and, if_pos (decide_eq_true h)]
  cases hstatus : build.status with
  | published => rfl
  | partialArchive => rfl
  | failed => exact absurd hstatus h

/-- The result of a generation publishes the artifacts of that generation, or none. -/
theorem finish (hc : c.Stocked) {claim : ClaimedJob} {snapshotId : Uuid} {staging : Staging}
    (hfinish : CaseFinish now claim snapshotId staging c c') : c'.Stocked := by
  have hnever : ∀ {reconstruction : ReconstructionJob}, reconstruction.runsFor claim = true →
      ¬ reconstruction.status.wasPublished := by
    intro reconstruction hruns
    simp only [ReconstructionJob.runsFor, Bool.and_eq_true, decide_eq_true_eq] at hruns
    apply not_wasPublished_of_isActive
    rw [hruns.1.2]
    rfl
  cases hfinish with
  | absent h => exact hc
  | unpublished h => exact hc.keep_of_not rfl rfl rfl le_rfl (hnever h) rfl
  | published objects h hobjects hbuild hready =>
    have hlength := hc.staged_length hready
    have hpublished : (ReconstructionJob.finish snapshotId (decide ((c.staged claim).length = 2))
        staging c.reconstruction).status.isPublished = true := by
      rw [decide_eq_true hlength]
      exact isPublished_terminalStatus hbuild
    have hsource := h
    simp only [ReconstructionJob.runsFor, Bool.and_eq_true, decide_eq_true_eq] at hsource
    constructor
    · exact Table.forall_update hc.of fun artifact hartifact _ ↦ hc.of artifact hartifact
    · change ((Table.update _ (ReconstructionArtifact.publish now) c.artifacts).map _).Nodup
      have hslots : (Table.update (ReconstructionArtifact.isStagedFor c.reconstruction.id
          claim.ownerId claim.leaseGeneration) (ReconstructionArtifact.publish now)
            c.artifacts).map ReconstructionArtifact.slot =
              c.artifacts.map ReconstructionArtifact.slot := Table.map_update _ fun _ _ _ ↦ rfl
      rw [hslots]
      exact hc.distinct
    · exact Table.forall_update hc.generation_le fun artifact hartifact _ ↦
        hc.generation_le artifact hartifact
    · intro artifact' hartifact' hlive
      obtain ⟨artifact, hartifact, rfl⟩ := Table.mem_update.1 hartifact'
      refine ⟨.inl hpublished, ?_⟩
      by_cases hsel : artifact.isStagedFor c.reconstruction.id claim.ownerId
          claim.leaseGeneration = true
      · rw [if_pos hsel]
        simp only [ReconstructionArtifact.isStagedFor, Bool.and_eq_true,
          decide_eq_true_eq] at hsel
        exact hsource.2.trans (congrArg some hsel.1.2.symm)
      · rw [if_neg hsel] at hlive ⊢
        exact absurd (hc.live artifact hartifact hlive).1 (hnever h)
    · intro _
      obtain ⟨archive, manifest, hkind, -, hmem⟩ := hc.exists_staged hlength
      obtain ⟨harchive, hsel⟩ := List.mem_filter.1 ((hmem archive).2 (.inl rfl))
      refine ⟨archive.publish now, Table.mem_update_of_sel harchive hsel, hkind, .inl rfl, ?_⟩
      simp only [ReconstructionArtifact.isStagedFor, Bool.and_eq_true, decide_eq_true_eq] at hsel
      exact hsource.2.trans (congrArg some hsel.1.2.symm)

theorem delete (hc : c.Stocked) {claimed : ClaimedReconstructionArtifact}
    {artifact : ReconstructionArtifact}
    (hids : ∀ other ∈ c.artifacts, other.id = artifact.id → other = artifact)
    (hclaimed : artifact.isClaimedAs claimed = true) (hkind : artifact.kind = claimed.kind) :
    ((c.moveArtifact (ReconstructionArtifact.isClaimedAs claimed)
      ReconstructionArtifact.delete).expire claimed).Stocked := by
  have hset : ∀ artifact : ReconstructionArtifact, artifact.delete.slot = artifact.slot ∧
      artifact.delete.reconstructionJobId = artifact.reconstructionJobId ∧
        artifact.delete.ownerId = artifact.ownerId := fun _ ↦ ⟨rfl, rfl, rfl⟩
  have hdead : ∀ artifact : ReconstructionArtifact, ¬ artifact.delete.isLive := by
    rintro artifact (h | h) <;> cases h
  unfold Case.expire
  split_ifs with hexpires
  · have hexpired : Case.Stocked { c with reconstruction := c.reconstruction.expire } := {
      hc with
      live := fun artifact hartifact hlive ↦ ⟨.inr rfl, (hc.live artifact hartifact hlive).2⟩
      own := fun h ↦ (by cases h) }
    exact hexpired.moveArtifact _ _ hset (fun artifact _ _ h ↦ absurd h (hdead artifact))
      fun h ↦ (by cases h)
  · refine hc.moveArtifact _ _ hset (fun artifact _ _ h ↦ absurd h (hdead artifact)) ?_
    intro hpublished other hother hsel hstatic _
    refine absurd ⟨?_, hpublished⟩ hexpires
    simp only [ReconstructionArtifact.isClaimedAs, Bool.and_eq_true, decide_eq_true_eq]
      at hclaimed hsel
    rw [← hkind, ← hids other hother (hsel.1.1.trans hclaimed.1.1.symm)]
    exact hstatic

end Case.Stocked

theorem CaseStep.stocked (h : CaseStep env action c c') (hc : c.Stocked) : c'.Stocked := by
  cases h with
  | same => exact hc
  | exhausted messageId h =>
    have hfailed := hc.fail (c.job.fail "CAPTURE_RETRIES_EXHAUSTED"
      "Capture lease expired after bounded retries") rfl
    exact hfailed.keep rfl rfl le_rfl
  | requeued h => exact hc.keep rfl rfl le_rfl
  | claimed messageId h => exact hc.claim _ _
  | @reclaimed now _ workerId _ messageId h =>
    have hrequeued : (c.requeue now).Stocked := hc.keep rfl rfl le_rfl
    exact hrequeued.claim _ _
  | extended hheld => exact hc.keep rfl rfl le_rfl
  | artifactsStaged archiveId manifestId hheld hruns hfresh =>
    exact hc.stageArtifacts hheld hruns hfresh
  | resultStaged snapshotId batchId messageId hclaim hheld hbatches hlimits hfinish =>
    exact (hc.finish hfinish).keep rfl rfl le_rfl
  | retried availableAt hheld hattempts => exact hc.keep rfl rfl le_rfl
  | @failed now claim error _ messageId hclaim hheld hattempts =>
    have hfailed := hc.fail (c.job.fail (boundedErrorCode env error)
      "Capture failed after bounded retries") rfl
    exact hfailed.keep rfl rfl le_rfl
  | completed messageId h => exact hc.keep rfl rfl le_rfl
  | artifactClaimed artifact hmem hids hstate hdue =>
    refine hc.moveArtifact _ _ (fun _ ↦ ⟨rfl, rfl, rfl⟩) ?_ ?_
    · intro other hother hsel hlive
      obtain rfl := hids other hother (of_decide_eq_true hsel)
      cases hother : other.state with
      | staged =>
        simp [ReconstructionArtifact.isLive, ReconstructionArtifact.claim, hother] at hlive
      | published => exact .inl hother
      | deletePending => exact .inr hother
      | deleted => exact absurd hother hstate
    · intro _ other _ _ _ hlive
      have hne : other.state ≠ .staged := by
        rcases hlive with h | h <;> rw [h] <;> simp
      exact .inr (if_neg hne)
  | artifactDeleted artifact hmem hids hclaimed hkind => exact hc.delete hids hclaimed hkind
  | artifactPostponed =>
    exact hc.moveArtifact _ _ (fun _ ↦ ⟨rfl, rfl, rfl⟩) (fun _ _ _ h ↦ h) fun _ _ _ _ _ h ↦ h

end WebLens.Capture
