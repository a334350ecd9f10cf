import WebLens.Capture.Case

/-!
# The rows of a case

A store shows a case for an identifier when the rows of that identifier are the case. A statement
about a table changes the case as it changes the rows of the case, and not at all when it changes
none of them.
-/

set_option autoImplicit false
set_option relaxedAutoImplicit false

namespace WebLens.Capture

open Lib Lib.Utf8 Lib.Transaction

/-- The rows of a capture request are the case. -/
structure Store.Shows (id : Uuid) (s : Store) (c : Case) : Prop where
  job : s.captureJobs.find? (fun job ↦ decide (job.id = id)) = some c.job
  reconstruction :
    s.reconstructionJobs.find? (fun job ↦ decide (job.captureJobId = id)) = some c.reconstruction
  artifacts : s.artifacts.filter
    (fun artifact ↦ decide (artifact.reconstructionJobId = c.reconstruction.id)) = c.artifacts
  batches : (s.analyticsOutbox.filter fun row ↦ decide (row.captureJobId = id)).map
    AnalyticsRow.id = c.batches
  events : (s.eventOutbox.filter fun row ↦ decide (row.captureJobId = id)).map
    EventRow.payload = c.events

/-- The rows of a capture request, and the claims that were given for it, are the case. -/
structure System.Shows (id : Uuid) (sys : System) (c : Case) : Prop where
  store : sys.store.Shows id c
  claims : sys.claims.filter (fun claim ↦ decide (claim.id = id)) = c.claims

namespace Store.Shows

variable {s : Store} {id : Uuid} {c : Case} {now : Instant}

/-! ### Rows of a case -/

theorem job_id (h : s.Shows id c) : c.job.id = id := by
  simpa using List.find?_some h.job

theorem job_mem (h : s.Shows id c) : c.job ∈ s.captureJobs :=
  List.mem_of_find?_eq_some h.job

theorem reconstruction_captureJobId (h : s.Shows id c) : c.reconstruction.captureJobId = id := by
  simpa using List.find?_some h.reconstruction

theorem reconstruction_mem (h : s.Shows id c) : c.reconstruction ∈ s.reconstructionJobs :=
  List.mem_of_find?_eq_some h.reconstruction

/-- With distinct keys, a job with the identifier is the job of the case. -/
theorem eq_job (h : s.Shows id c) (hkeyed : s.Keyed) {job : CaptureJob}
    (hjob : job ∈ s.captureJobs) (hid : job.id = id) : job = c.job :=
  Table.eq_of_key_eq hkeyed.jobs hjob h.job_mem (hid.trans h.job_id.symm)

/-- With distinct keys, a reconstruction with the identifier is the one of the case. -/
theorem eq_reconstruction (h : s.Shows id c) (hkeyed : s.Keyed) {job : ReconstructionJob}
    (hjob : job ∈ s.reconstructionJobs) (hid : job.id = c.reconstruction.id) :
    job = c.reconstruction :=
  Table.eq_of_key_eq hkeyed.reconstructions hjob h.reconstruction_mem hid

/-- With distinct keys, the reconstruction of the job is the one of the case. -/
theorem eq_reconstruction_of_job (h : s.Shows id c) (hkeyed : s.Keyed) {job : ReconstructionJob}
    (hjob : job ∈ s.reconstructionJobs) (hid : job.captureJobId = id) : job = c.reconstruction := by
  have hnodup : (s.reconstructionJobs.map ReconstructionJob.captureJobId).Nodup := by
    have hids : s.reconstructionJobs.map ReconstructionJob.captureJobId =
        s.captureJobs.map CaptureJob.id := by
      have haligned := congrArg (List.map Prod.fst) hkeyed.aligned
      rw [List.map_map, List.map_map] at haligned
      exact haligned
    rw [hids]
    exact hkeyed.jobs
  exact Table.eq_of_key_eq hnodup hjob h.reconstruction_mem
    (hid.trans h.reconstruction_captureJobId.symm)

/-- A job and its reconstruction have the same owner. -/
theorem ownerId_eq (h : s.Shows id c) (hkeyed : s.Keyed) :
    c.reconstruction.ownerId = c.job.ownerId := by
  have hmem : c.reconstruction.key ∈ s.captureJobs.map CaptureJob.key := by
    rw [← hkeyed.aligned]
    exact List.mem_map_of_mem h.reconstruction_mem
  obtain ⟨job, hjob, hkey⟩ := List.mem_map.1 hmem
  simp only [CaptureJob.key, ReconstructionJob.key, Prod.mk.injEq] at hkey
  have hid : job.id = id := hkey.1.trans h.reconstruction_captureJobId
  rw [← h.eq_job hkeyed hjob hid]
  exact hkey.2.symm

theorem mem_artifacts (h : s.Shows id c) {artifact : ReconstructionArtifact} :
    artifact ∈ c.artifacts ↔
      artifact ∈ s.artifacts ∧ artifact.reconstructionJobId = c.reconstruction.id := by
  rw [← h.artifacts, List.mem_filter, decide_eq_true_eq]

/-- With distinct keys, an artifact is known by its identifier. -/
theorem eq_artifact (h : s.Shows id c) (hkeyed : s.Keyed) {artifact : ReconstructionArtifact}
    (hmem : artifact ∈ s.artifacts) :
    ∀ other ∈ c.artifacts, other.id = artifact.id → other = artifact := by
  intro other hother hid
  exact Table.eq_of_key_eq hkeyed.artifacts (h.mem_artifacts.1 hother).1 hmem hid

/-- The rows of a capture request are one case, but for its claims. -/
theorem unique {c₁ c₂ : Case} (h₁ : s.Shows id c₁) (h₂ : s.Shows id c₂)
    (hclaims : c₁.claims = c₂.claims) : c₁ = c₂ := by
  have hreconstruction : c₁.reconstruction = c₂.reconstruction :=
    Option.some.inj (h₁.reconstruction.symm.trans h₂.reconstruction)
  have hartifacts : c₁.artifacts = c₂.artifacts := by
    rw [← h₁.artifacts, ← h₂.artifacts, hreconstruction]
  cases c₁
  cases c₂
  congr
  · exact Option.some.inj (h₁.job.symm.trans h₂.job)
  · exact h₁.batches.symm.trans h₂.batches
  · exact h₁.events.symm.trans h₂.events

/-! ### Statements -/

theorem updateJobs (h : s.Shows id c) (sel : CaptureJob → Bool) (set : CaptureJob → CaptureJob)
    (hset : ∀ job, (set job).id = job.id) :
    Store.Shows id { s with captureJobs := Table.update sel set s.captureJobs }
      { c with job := if sel c.job then set c.job else c.job } := by
  have hkey : ∀ job, decide ((set job).id = id) = decide (job.id = id) := fun job ↦ by rw [hset]
  refine { h with job := ?_ }
  change (Table.update sel set s.captureJobs).find? _ = _
  rw [Table.find?_update (fun job : CaptureJob ↦ decide (job.id = id)) hkey, h.job]
  rfl

/-- A statement about the jobs that leaves out the job of the case. -/
theorem updateJobs_of_not (h : s.Shows id c) (sel : CaptureJob → Bool)
    (set : CaptureJob → CaptureJob) (hset : ∀ job, (set job).id = job.id)
    (hsel : sel c.job = false) :
    Store.Shows id { s with captureJobs := Table.update sel set s.captureJobs } c := by
  have h := h.updateJobs sel set hset
  rw [hsel] at h
  exact h

/-- A statement about the jobs that selects the job of the case. -/
theorem updateJobs_of_sel (h : s.Shows id c) (sel : CaptureJob → Bool)
    (set : CaptureJob → CaptureJob) (hset : ∀ job, (set job).id = job.id)
    (hsel : sel c.job = true) :
    Store.Shows id { s with captureJobs := Table.update sel set s.captureJobs }
      { c with job := set c.job } := by
  have h := h.updateJobs sel set hset
  rw [hsel] at h
  exact h

theorem updateReconstructions (h : s.Shows id c) (sel : ReconstructionJob → Bool)
    (set : ReconstructionJob → ReconstructionJob)
    (hset : ∀ job, (set job).id = job.id ∧ (set job).captureJobId = job.captureJobId) :
    Store.Shows id { s with
      reconstructionJobs := Table.update sel set s.reconstructionJobs }
      { c with
        reconstruction :=
          if sel c.reconstruction then set c.reconstruction else c.reconstruction } := by
  have hkey : ∀ job, decide ((set job).captureJobId = id) = decide (job.captureJobId = id) :=
    fun job ↦ by rw [(hset job).2]
  have hid : (if sel c.reconstruction then set c.reconstruction else c.reconstruction).id =
      c.reconstruction.id := by
    split_ifs
    · exact (hset _).1
    · rfl
  refine { h with reconstruction := ?_, artifacts := ?_ }
  · change (Table.update sel set s.reconstructionJobs).find? _ = _
    rw [Table.find?_update (fun job : ReconstructionJob ↦ decide (job.captureJobId = id)) hkey,
      h.reconstruction]
    rfl
  · simp only [hid]
    exact h.artifacts

theorem updateReconstructions_of_not (h : s.Shows id c) (sel : ReconstructionJob → Bool)
    (set : ReconstructionJob → ReconstructionJob)
    (hset : ∀ job, (set job).id = job.id ∧ (set job).captureJobId = job.captureJobId)
    (hsel : sel c.reconstruction = false) :
    Store.Shows id { s with
      reconstructionJobs := Table.update sel set s.reconstructionJobs } c := by
  have h := h.updateReconstructions sel set hset
  rw [hsel] at h
  exact h

theorem updateReconstructions_of_sel (h : s.Shows id c) (sel : ReconstructionJob → Bool)
    (set : ReconstructionJob → ReconstructionJob)
    (hset : ∀ job, (set job).id = job.id ∧ (set job).captureJobId = job.captureJobId)
    (hsel : sel c.reconstruction = true) :
    Store.Shows id { s with
      reconstructionJobs := Table.update sel set s.reconstructionJobs }
      { c with reconstruction := set c.reconstruction } := by
  have h := h.updateReconstructions sel set hset
  rw [hsel] at h
  exact h

theorem updateArtifacts (h : s.Shows id c) (sel : ReconstructionArtifact → Bool)
    (set : ReconstructionArtifact → ReconstructionArtifact)
    (hset : ∀ artifact, (set artifact).reconstructionJobId = artifact.reconstructionJobId) :
    Store.Shows id (s.artifactsMoved sel set) (c.moveArtifact sel set) := by
  have hkey : ∀ artifact,
      decide ((set artifact).reconstructionJobId = c.reconstruction.id) =
        decide (artifact.reconstructionJobId = c.reconstruction.id) :=
    fun artifact ↦ by rw [hset]
  refine { h with artifacts := ?_ }
  change (Table.update sel set s.artifacts).filter (fun artifact ↦
    decide (artifact.reconstructionJobId = c.reconstruction.id)) = Table.update sel set c.artifacts
  rw [Table.filter_update_of_eq (fun artifact : ReconstructionArtifact ↦
    decide (artifact.reconstructionJobId = c.reconstruction.id)) hkey, h.artifacts]

theorem updateArtifacts_of_not (h : s.Shows id c) (sel : ReconstructionArtifact → Bool)
    (set : ReconstructionArtifact → ReconstructionArtifact)
    (hset : ∀ artifact, (set artifact).reconstructionJobId = artifact.reconstructionJobId)
    (hsel : ∀ artifact ∈ c.artifacts, sel artifact = false) :
    Store.Shows id (s.artifactsMoved sel set) c := by
  have h := h.updateArtifacts sel set hset
  rw [Case.moveArtifact, Table.update_eq_self hsel] at h
  exact h

theorem updateBatches (h : s.Shows id c) (sel : AnalyticsRow → Bool)
    (set : AnalyticsRow → AnalyticsRow)
    (hset : ∀ row, (set row).id = row.id ∧ (set row).captureJobId = row.captureJobId) :
    (s.batchesMoved sel set).Shows id c := by
  have hkey : ∀ row, decide ((set row).captureJobId = id) = decide (row.captureJobId = id) :=
    fun row ↦ by rw [(hset row).2]
  refine { h with batches := ?_ }
  change ((Table.update sel set s.analyticsOutbox).filter _).map _ = _
  rw [Table.filter_update_of_eq (fun row : AnalyticsRow ↦ decide (row.captureJobId = id)) hkey,
    Table.map_update _ fun row _ _ ↦ (hset row).1]
  exact h.batches

theorem updateEvents (h : s.Shows id c) (sel : EventRow → Bool) (set : EventRow → EventRow)
    (hset : ∀ row, (set row).payload = row.payload ∧ (set row).captureJobId = row.captureJobId) :
    (s.eventsMoved sel set).Shows id c := by
  have hkey : ∀ row, decide ((set row).captureJobId = id) = decide (row.captureJobId = id) :=
    fun row ↦ by rw [(hset row).2]
  refine { h with events := ?_ }
  change ((Table.update sel set s.eventOutbox).filter _).map _ = _
  rw [Table.filter_update_of_eq (fun row : EventRow ↦ decide (row.captureJobId = id)) hkey,
    Table.map_update _ fun row _ _ ↦ (hset row).1]
  exact h.events

/-- Other tables and larger identifiers do not show. -/
theorem withOthers (h : s.Shows id c) (snapshots : List PageSnapshot)
    (references : List ObjectReference) (next : Uuid) :
    Store.Shows id { s with
      snapshots := snapshots, objectReferences := references, nextUuid := next } c :=
  { h with }

/-- An event of the job of the case. -/
theorem withEvent (h : s.Shows id c) (hkeyed : s.Keyed) {row : CaptureJob}
    (hrow : row ∈ s.captureJobs) (hid : row.id = id) (ownerId correlationId : Uuid)
    (status : ProgressStatus) (counts : Counts) (terminalCode terminalMessage : Option String) :
    (s.withEvent now row ownerId correlationId status counts terminalCode terminalMessage).Shows id
      (c.withEvent now s.nextUuid ownerId correlationId status counts terminalCode
        terminalMessage) := by
  obtain rfl := h.eq_job hkeyed hrow hid
  have hbumped := h.updateJobs_of_sel (fun other ↦ decide (other.id = c.job.id)) CaptureJob.bump
    (fun _ ↦ rfl) (decide_eq_true rfl)
  refine { hbumped with events := ?_ }
  change ((s.eventOutbox ++ [_]).filter _).map _ = c.events ++ [_]
  rw [List.filter_append, List.map_append, h.events, List.filter_cons_of_pos, List.filter_nil]
  · rfl
  · exact decide_eq_true hid

/-- An event of another job. -/
theorem withEvent_of_ne (h : s.Shows id c) {row : CaptureJob} (hid : row.id ≠ id)
    (ownerId correlationId : Uuid) (status : ProgressStatus) (counts : Counts)
    (terminalCode terminalMessage : Option String) :
    (s.withEvent now row ownerId correlationId status counts terminalCode terminalMessage).Shows id
      c := by
  have hbumped := h.updateJobs_of_not (fun other ↦ decide (other.id = row.id)) CaptureJob.bump
    (fun _ ↦ rfl) (decide_eq_false fun heq ↦ hid (heq.symm.trans h.job_id))
  refine { hbumped with events := ?_ }
  change ((s.eventOutbox ++ [_]).filter _).map _ = c.events
  rw [List.filter_append, List.filter_cons_of_neg, List.filter_nil, List.append_nil]
  · exact h.events
  · exact fun heq ↦ hid (of_decide_eq_true heq)

/-- An artifact of the reconstruction of the case. -/
theorem withArtifact (h : s.Shows id c) {artifact : ReconstructionArtifact}
    (hid : artifact.reconstructionJobId = c.reconstruction.id) :
    (s.withArtifact artifact).Shows id { c with artifacts := c.artifacts ++ [artifact] } := by
  refine { h with artifacts := ?_ }
  change (s.artifacts ++ [artifact]).filter _ = c.artifacts ++ [artifact]
  rw [List.filter_append, h.artifacts, List.filter_cons_of_pos, List.filter_nil]
  exact decide_eq_true hid

/-- An artifact of another reconstruction. -/
theorem withArtifact_of_ne (h : s.Shows id c) {artifact : ReconstructionArtifact}
    (hid : artifact.reconstructionJobId ≠ c.reconstruction.id) :
    (s.withArtifact artifact).Shows id c := by
  refine { h with artifacts := ?_ }
  change (s.artifacts ++ [artifact]).filter _ = c.artifacts
  rw [List.filter_append, List.filter_cons_of_neg, List.filter_nil, List.append_nil]
  · exact h.artifacts
  · simpa using hid

/-- A batch of the job of the case. -/
theorem withBatch (h : s.Shows id c) (row : AnalyticsRow) (hid : row.captureJobId = id) :
    Store.Shows id { s with analyticsOutbox := s.analyticsOutbox ++ [row] }
      { c with batches := c.batches ++ [row.id] } := by
  refine { h with batches := ?_ }
  change ((s.analyticsOutbox ++ [row]).filter _).map _ = c.batches ++ [row.id]
  rw [List.filter_append, List.map_append, h.batches, List.filter_cons_of_pos, List.filter_nil]
  · rfl
  · exact decide_eq_true hid

/-- A batch of another job. -/
theorem withBatch_of_ne (h : s.Shows id c) (row : AnalyticsRow) (hid : row.captureJobId ≠ id) :
    Store.Shows id { s with analyticsOutbox := s.analyticsOutbox ++ [row] } c := by
  refine { h with batches := ?_ }
  change ((s.analyticsOutbox ++ [row]).filter _).map _ = c.batches
  rw [List.filter_append, List.filter_cons_of_neg, List.filter_nil, List.append_nil]
  · exact h.batches
  · simpa using hid

end Store.Shows

end WebLens.Capture
