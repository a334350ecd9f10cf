import WebLens.Capture.Effects

/-!
# Keys

Every capture job has one reconstruction, of the same owner. Identifiers are distinct, what refers
to a row finds it, and the next identifier is above all those in use. Every step of the capture
worker keeps this.
-/

set_option autoImplicit false
set_option relaxedAutoImplicit false

namespace WebLens.Capture

open Lib Lib.Utf8 Lib.Transaction

/-- What a capture job and its reconstruction have in common. -/
def CaptureJob.key (job : CaptureJob) : Uuid × Uuid :=
  (job.id, job.ownerId)

/-- What a reconstruction and its capture job have in common. -/
def ReconstructionJob.key (job : ReconstructionJob) : Uuid × Uuid :=
  (job.captureJobId, job.ownerId)

/-- What a deletion repeats of its artifact. -/
def ReconstructionArtifact.key (artifact : ReconstructionArtifact) : Uuid × Uuid × ArtifactKind :=
  (artifact.id, artifact.reconstructionJobId, artifact.kind)

/-- What a deletion repeats of its artifact. -/
def ClaimedReconstructionArtifact.key (claimed : ClaimedReconstructionArtifact) :
    Uuid × Uuid × ArtifactKind :=
  (claimed.id, claimed.reconstructionId, claimed.kind)

/-- Identifiers are distinct and references find their rows. -/
structure Store.Keyed (s : Store) : Prop where
  jobs : (s.captureJobs.map CaptureJob.id).Nodup
  aligned : s.reconstructionJobs.map ReconstructionJob.key = s.captureJobs.map CaptureJob.key
  reconstructions : (s.reconstructionJobs.map ReconstructionJob.id).Nodup
  reconstructions_lt : ∀ job ∈ s.reconstructionJobs, job.id < s.nextUuid
  artifacts : (s.artifacts.map ReconstructionArtifact.id).Nodup
  artifacts_lt : ∀ artifact ∈ s.artifacts, artifact.id < s.nextUuid
  artifactsOf : ∀ artifact ∈ s.artifacts,
    artifact.reconstructionJobId ∈ s.reconstructionJobs.map ReconstructionJob.id
  batches : ∀ row ∈ s.analyticsOutbox, row.captureJobId ∈ s.captureJobs.map CaptureJob.id
  events : ∀ row ∈ s.eventOutbox, row.captureJobId ∈ s.captureJobs.map CaptureJob.id
  eventIds : (s.eventOutbox.map EventRow.messageId).Nodup
  events_lt : ∀ row ∈ s.eventOutbox,
    row.messageId < s.nextUuid ∧ row.payload.messageId = row.messageId

namespace Store.Keyed

variable {s : Store} {now : Instant}

/-! ### Statements -/

theorem updateJobs (h : s.Keyed) (sel : CaptureJob → Bool) (set : CaptureJob → CaptureJob)
    (hset : ∀ job, (set job).key = job.key) :
    Store.Keyed { s with captureJobs := Table.update sel set s.captureJobs } := by
  have hid : (Table.update sel set s.captureJobs).map CaptureJob.id =
      s.captureJobs.map CaptureJob.id :=
    Table.map_update _ fun job _ _ ↦ congrArg Prod.fst (hset job)
  have hkey : (Table.update sel set s.captureJobs).map CaptureJob.key =
      s.captureJobs.map CaptureJob.key := Table.map_update _ fun job _ _ ↦ hset job
  constructor
  · exact hid ▸ h.jobs
  · exact h.aligned.trans hkey.symm
  · exact h.reconstructions
  · exact h.reconstructions_lt
  · exact h.artifacts
  · exact h.artifacts_lt
  · exact h.artifactsOf
  · exact hid ▸ h.batches
  · exact hid ▸ h.events
  · exact h.eventIds
  · exact h.events_lt

theorem updateReconstructions (h : s.Keyed) (sel : ReconstructionJob → Bool)
    (set : ReconstructionJob → ReconstructionJob)
    (hset : ∀ job, (set job).key = job.key ∧ (set job).id = job.id) :
    Store.Keyed { s with
      reconstructionJobs := Table.update sel set s.reconstructionJobs } where
  jobs := h.jobs
  aligned := (Table.map_update _ fun job _ _ ↦ (hset job).1).trans h.aligned
  reconstructions := by
    rw [Table.map_update ReconstructionJob.id fun job _ _ ↦ (hset job).2]
    exact h.reconstructions
  reconstructions_lt := Table.forall_update h.reconstructions_lt fun job hjob _ ↦ by
    rw [(hset job).2]
    exact h.reconstructions_lt job hjob
  artifacts := h.artifacts
  artifacts_lt := h.artifacts_lt
  artifactsOf := by
    rw [Table.map_update ReconstructionJob.id fun job _ _ ↦ (hset job).2]
    exact h.artifactsOf
  batches := h.batches
  events := h.events
  eventIds := h.eventIds
  events_lt := h.events_lt

theorem updateArtifacts (h : s.Keyed) (sel : ReconstructionArtifact → Bool)
    (set : ReconstructionArtifact → ReconstructionArtifact)
    (hset : ∀ artifact, (set artifact).key = artifact.key) :
    Store.Keyed { s with artifacts := Table.update sel set s.artifacts } where
  jobs := h.jobs
  aligned := h.aligned
  reconstructions := h.reconstructions
  reconstructions_lt := h.reconstructions_lt
  artifacts := by
    rw [Table.map_update ReconstructionArtifact.id fun artifact _ _ ↦
      congrArg Prod.fst (hset artifact)]
    exact h.artifacts
  artifacts_lt := Table.forall_update h.artifacts_lt fun artifact hartifact _ ↦ by
    have hkey := hset artifact
    simp only [ReconstructionArtifact.key, Prod.mk.injEq] at hkey
    rw [hkey.1]
    exact h.artifacts_lt artifact hartifact
  artifactsOf := Table.forall_update h.artifactsOf fun artifact hartifact _ ↦ by
    have hkey := hset artifact
    simp only [ReconstructionArtifact.key, Prod.mk.injEq] at hkey
    rw [hkey.2.1]
    exact h.artifactsOf artifact hartifact
  batches := h.batches
  events := h.events
  eventIds := h.eventIds
  events_lt := h.events_lt

theorem updateBatches (h : s.Keyed) (sel : AnalyticsRow → Bool) (set : AnalyticsRow → AnalyticsRow)
    (hset : ∀ row, (set row).captureJobId = row.captureJobId) :
    Store.Keyed (s.batchesMoved sel set) :=
  { h with
    batches := Table.forall_update h.batches fun row hrow _ ↦ (hset row).symm ▸ h.batches row hrow }

theorem updateEvents (h : s.Keyed) (sel : EventRow → Bool) (set : EventRow → EventRow)
    (hset : ∀ row, (set row).captureJobId = row.captureJobId ∧
      (set row).messageId = row.messageId ∧ (set row).payload = row.payload) :
    Store.Keyed (s.eventsMoved sel set) :=
  { h with
    events := Table.forall_update h.events fun row hrow _ ↦
      (hset row).1.symm ▸ h.events row hrow
    eventIds := by
      unfold Store.eventsMoved
      rw [Table.map_update _ fun row _ _ ↦ (hset row).2.1]
      exact h.eventIds
    events_lt := Table.forall_update h.events_lt fun row hrow _ ↦ by
      rw [(hset row).2.1, (hset row).2.2]
      exact h.events_lt row hrow }

/-- Other tables and larger identifiers do not matter. -/
theorem withOthers (h : s.Keyed) (snapshots : List PageSnapshot)
    (references : List ObjectReference) {next : Uuid} (hnext : s.nextUuid ≤ next) :
    Store.Keyed { s with
      snapshots := snapshots, objectReferences := references, nextUuid := next } where
  jobs := h.jobs
  aligned := h.aligned
  reconstructions := h.reconstructions
  reconstructions_lt job hjob := (h.reconstructions_lt job hjob).trans_le hnext
  artifacts := h.artifacts
  artifacts_lt artifact hartifact := (h.artifacts_lt artifact hartifact).trans_le hnext
  artifactsOf := h.artifactsOf
  batches := h.batches
  events := h.events
  eventIds := h.eventIds
  events_lt row hrow := (h.events_lt row hrow).imp_left (·.trans_le hnext)

theorem withEvent (h : s.Keyed) {job : CaptureJob} (hjob : job ∈ s.captureJobs)
    {ownerId correlationId : Uuid} {status : ProgressStatus} {counts : Counts}
    {terminalCode terminalMessage : Option String} :
    (s.withEvent now job ownerId correlationId status counts terminalCode
      terminalMessage).Keyed := by
  have hnext := h.withOthers s.snapshots s.objectReferences (Nat.le_succ s.nextUuid)
  have hbumped := hnext.updateJobs (fun other ↦ decide (other.id = job.id)) CaptureJob.bump
    fun _ ↦ rfl
  refine { hbumped with events := ?_, eventIds := ?_, events_lt := ?_ }
  · intro row hrow
    rcases List.mem_append.1 hrow with hrow | hrow
    · exact hbumped.events row hrow
    rw [List.mem_singleton.1 hrow]
    have hids : (Table.update (fun other ↦ decide (other.id = job.id)) CaptureJob.bump
        s.captureJobs).map CaptureJob.id = s.captureJobs.map CaptureJob.id :=
      Table.map_update CaptureJob.id fun _ _ _ ↦ rfl
    change job.id ∈ (Table.update _ _ s.captureJobs).map CaptureJob.id
    rw [hids]
    exact List.mem_map_of_mem hjob
  · exact Table.nodup_map_concat h.eventIds fun row hrow ↦ (h.events_lt row hrow).1.ne
  · intro row hrow
    rcases List.mem_append.1 hrow with hrow | hrow
    · exact hbumped.events_lt row hrow
    · rw [List.mem_singleton.1 hrow]
      exact ⟨Nat.lt_succ_self _, rfl⟩

theorem withArtifact (h : s.Keyed) {artifact : ReconstructionArtifact}
    (hid : artifact.id = s.nextUuid) (hof : artifact.reconstructionJobId ∈
      s.reconstructionJobs.map ReconstructionJob.id) : (s.withArtifact artifact).Keyed := by
  have hnext := h.withOthers s.snapshots s.objectReferences (Nat.le_succ s.nextUuid)
  refine { hnext with artifacts := ?_, artifacts_lt := ?_, artifactsOf := ?_ }
  · change ((s.artifacts ++ [artifact]).map ReconstructionArtifact.id).Nodup
    refine Table.nodup_map_concat h.artifacts fun other hother ↦ ?_
    rw [hid]
    exact (h.artifacts_lt other hother).ne
  · intro other hother
    rcases List.mem_append.1 hother with hother | hother
    · exact hnext.artifacts_lt other hother
    · rw [List.mem_singleton.1 hother, hid]
      exact Nat.lt_succ_self _
  · intro other hother
    rcases List.mem_append.1 hother with hother | hother
    · exact h.artifactsOf other hother
    · rw [List.mem_singleton.1 hother]
      exact hof

theorem accepted (h : s.Keyed) {hash : ByteString} {envelope : CaptureCommandEnvelope}
    (hnew : ∀ job ∈ s.captureJobs, job.id ≠ envelope.payload.captureRequestId) :
    (s.accepted now hash envelope).Keyed := by
  have hnext := h.withOthers s.snapshots s.objectReferences (Nat.le_succ s.nextUuid)
  constructor
  · change ((s.captureJobs ++ [newCaptureJob now hash envelope]).map CaptureJob.id).Nodup
    exact Table.nodup_map_concat h.jobs hnew
  · change (s.reconstructionJobs ++ [newReconstructionJob s.nextUuid envelope]).map _ =
      (s.captureJobs ++ [newCaptureJob now hash envelope]).map _
    rw [List.map_append, List.map_append, h.aligned]
    rfl
  · change ((s.reconstructionJobs ++ [newReconstructionJob s.nextUuid envelope]).map
      ReconstructionJob.id).Nodup
    exact Table.nodup_map_concat h.reconstructions fun job hjob ↦ (h.reconstructions_lt job hjob).ne
  · intro job hjob
    rcases List.mem_append.1 hjob with hjob | hjob
    · exact hnext.reconstructions_lt job hjob
    · rw [List.mem_singleton.1 hjob]
      exact Nat.lt_succ_self _
  · exact h.artifacts
  · exact hnext.artifacts_lt
  · intro artifact hartifact
    change _ ∈ (s.reconstructionJobs ++ [newReconstructionJob s.nextUuid envelope]).map _
    rw [List.map_append]
    exact List.mem_append_left _ (h.artifactsOf artifact hartifact)
  · intro row hrow
    change row.captureJobId ∈ (s.captureJobs ++ [newCaptureJob now hash envelope]).map _
    rw [List.map_append]
    exact List.mem_append_left _ (h.batches row hrow)
  · intro row hrow
    change row.captureJobId ∈ (s.captureJobs ++ [newCaptureJob now hash envelope]).map _
    rw [List.map_append]
    exact List.mem_append_left _ (h.events row hrow)
  · exact h.eventIds
  · exact hnext.events_lt

/-! ### Transactions -/

theorem fail (h : s.Keyed) (jobId : Uuid) : (s.reconstructionFailed jobId).Keyed :=
  h.updateReconstructions _ _ fun _ ↦ ⟨rfl, rfl⟩

theorem exhausts {s' : Store} {jobs : List CaptureJob} (hstep : Exhausts now jobs s s')
    (h : s.Keyed) : s'.Keyed := by
  induction hstep with
  | nil s => exact h
  | cons job row jobs hrow hid hrest ih => exact ih ((h.fail job.id).withEvent hrow)

theorem finishes {s' : Store} {claim : ClaimedJob} {snapshotId : Uuid} {staging : Staging}
    (hstep : Finishes now claim snapshotId staging s s') (h : s.Keyed) : s'.Keyed := by
  cases hstep with
  | absent hnone => exact h
  | unpublished reconstruction hmem hruns =>
    exact h.updateReconstructions _ _ fun _ ↦ ⟨rfl, rfl⟩
  | published reconstruction objects hmem hruns hobjects hbuild hready =>
    have hpublished : (s.artifactsPublished now claim reconstruction.id).Keyed :=
      h.updateArtifacts _ _ fun _ ↦ rfl
    exact hpublished.updateReconstructions _ _ fun _ ↦ ⟨rfl, rfl⟩

theorem withBatch (h : s.Keyed) (row : AnalyticsRow)
    (hjob : row.captureJobId ∈ s.captureJobs.map CaptureJob.id) :
    Store.Keyed { s with analyticsOutbox := s.analyticsOutbox ++ [row] } := by
  refine { h with batches := ?_ }
  intro other hother
  rcases List.mem_append.1 hother with hother | hother
  · exact h.batches other hother
  · rw [List.mem_singleton.1 hother]
    exact hjob

end Store.Keyed

end WebLens.Capture
