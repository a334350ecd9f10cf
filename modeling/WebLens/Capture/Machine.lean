import WebLens.Capture.Artifacts

/-!
# The machine of capture and reconstruction jobs

What holds of every run of the capture worker: attempts are bounded, results are staged once and by
their holder, stale workers change nothing, jobs that are over stay over, and a reconstruction runs
and publishes in step with its capture job.
-/

set_option autoImplicit false
set_option relaxedAutoImplicit false

namespace WebLens.Capture

open Lib Lib.Utf8 Lib.Transaction

variable {env : Env} {action : Action} {c c' : Case} {id : Uuid} {now : Instant} {sys : System}

/-! ### Runs -/

/-- What holds of every case of every run. -/
structure Case.Sound (c : Case) : Prop where
  leased : c.Leased
  reconstructed : c.Reconstructed
  stocked : c.Stocked
  batches_le : c.batches.length ≤ 1

theorem Case.Sound.new {hash : ByteString} {envelope : CaptureCommandEnvelope}
    {reconstructionId : Uuid} : (newCase now hash envelope reconstructionId).Sound :=
  ⟨.new, .new, .new, Nat.zero_le 1⟩

theorem CaseFinish.batches_eq {claim : ClaimedJob} {snapshotId : Uuid} {staging : Staging}
    (h : CaseFinish now claim snapshotId staging c c') : c'.batches = c.batches := by
  cases h <;> rfl

theorem Case.batches_expire {claimed : ClaimedReconstructionArtifact} :
    (c.expire claimed).batches = c.batches := by
  unfold Case.expire
  split_ifs <;> rfl

/-- Only a result brings a batch. -/
theorem CaseStep.batches_eq (h : CaseStep env action c c') :
    c'.batches = c.batches ∨ ∃ now claim staging batchId, action = .stageResult now claim staging ∧
      c.job.isHeldBy claim = true ∧ c.batches = [] ∧ c'.batches = [batchId] := by
  cases h with
  | @resultStaged now claim staging _ c₁ snapshotId batchId messageId hclaim hheld hbatches hlimits hfinish =>
    refine .inr ⟨now, claim, staging, batchId, rfl, hheld, hbatches, ?_⟩
    change c₁.batches ++ [batchId] = [batchId]
    rw [hfinish.batches_eq, hbatches]
    rfl
  | artifactDeleted artifact hmem hids hclaimed hkind => exact .inl Case.batches_expire
  | same | exhausted | requeued | claimed | reclaimed | extended | artifactsStaged | retried
  | failed | completed | artifactClaimed | artifactPostponed => exact .inl rfl

theorem CaseStep.sound (h : CaseStep env action c c') (hc : c.Sound) : c'.Sound where
  leased := h.leased hc.leased
  reconstructed := h.reconstructed hc.leased hc.reconstructed
  stocked := h.stocked hc.stocked
  batches_le := by
    rcases h.batches_eq with heq | ⟨_, _, _, batchId, _, _, _, heq⟩
    · exact heq ▸ hc.batches_le
    · rw [heq]
      exact le_refl 1

/-- The keys, and every case. -/
structure System.Sound (sys : System) : Prop where
  keyed : sys.Keyed
  cases : ∀ {id c}, sys.Shows id c → c.Sound

theorem System.Sound.step (env : Env) (h : sys.Sound) (action : Action) :
    (sys.step env action).Sound := by
  refine ⟨h.keyed.step action, fun {id c'} hshows' ↦ ?_⟩
  by_cases hid : id ∈ sys.store.captureJobs.map CaptureJob.id
  · obtain ⟨c, hshows, hclaims⟩ := h.keyed.store.exists_shows hid _
    obtain ⟨c₁, hshows₁, hstep⟩ := System.Shows.step env h.keyed ⟨hshows, hclaims.symm⟩ action
    rw [hshows'.unique hshows₁]
    exact hstep.sound (h.cases ⟨hshows, hclaims.symm⟩)
  · obtain ⟨now, hash, envelope, reconstructionId, rfl⟩ := hshows'.new h.keyed hid
    exact .new

theorem System.sound_after (env : Env) (actions : List Action) :
    (System.after env actions).Sound := by
  refine run_invariant (fun sys action (h : sys.Sound) ↦ h.step env action) ?_ actions
  refine ⟨⟨?_, fun _ h ↦ (by cases h), fun _ h ↦ (by cases h)⟩, fun h ↦ ?_⟩
  · constructor <;> simp
  · have hjob := h.store.job
    cases hjob

/-- The case of a job of a run. -/
theorem System.Sound.exists_case (h : sys.Sound) {job : CaptureJob}
    (hjob : job ∈ sys.store.captureJobs) :
    ∃ c, sys.Shows job.id c ∧ c.job = job ∧ c.Sound := by
  obtain ⟨c, hshows, hclaims⟩ := h.keyed.store.exists_shows (List.mem_map_of_mem hjob) _
  exact ⟨c, ⟨hshows, hclaims.symm⟩, (hshows.eq_job h.keyed.store hjob rfl).symm,
    h.cases ⟨hshows, hclaims.symm⟩⟩

/-- The case of a reconstruction of a run. -/
theorem System.Sound.exists_case_reconstruction (h : sys.Sound) {job : ReconstructionJob}
    (hjob : job ∈ sys.store.reconstructionJobs) :
    ∃ c, sys.Shows job.captureJobId c ∧ c.reconstruction = job ∧ c.Sound := by
  have hkey : job.key ∈ sys.store.captureJobs.map CaptureJob.key := by
    rw [← h.keyed.store.aligned]
    exact List.mem_map_of_mem hjob
  obtain ⟨other, hother, heq⟩ := List.mem_map.1 hkey
  have hid : other.id = job.captureJobId := congrArg Prod.fst heq
  obtain ⟨c, hshows, -, hsound⟩ := h.exists_case hother
  rw [hid] at hshows
  exact ⟨c, hshows, (hshows.store.eq_reconstruction_of_job h.keyed.store hjob rfl).symm, hsound⟩

/-! ### Results -/

/-- Whether the action stages a result of the job. -/
def System.stages (env : Env) (id : Uuid) (sys : System) : Action → Bool
  | .stageResult now claim staging =>
    decide (claim ∈ sys.claims) && decide (claim.id = id) &&
      (commit (stageResult env now claim staging) sys.store).1.isOk
  | _ => false

/-- How many results of the job the actions stage. -/
def stagings (env : Env) (id : Uuid) : System → List Action → ℕ
  | _, [] => 0
  | sys, action :: actions =>
    (if sys.stages env id action then 1 else 0) + stagings env id (sys.step env action) actions

/-- The number of batches of a job. -/
def Store.batchCount (id : Uuid) (s : Store) : ℕ :=
  s.analyticsOutbox.countP fun row ↦ decide (row.captureJobId = id)

theorem Store.Shows.batchCount_eq {s : Store} (h : s.Shows id c) :
    s.batchCount id = c.batches.length := by
  rw [← h.batches, List.length_map, Store.batchCount, List.countP_eq_length_filter]

theorem Store.Keyed.batchCount_eq_zero {s : Store} (h : s.Keyed)
    (hid : id ∉ s.captureJobs.map CaptureJob.id) : s.batchCount id = 0 := by
  rw [Store.batchCount, List.countP_eq_zero]
  intro row hrow heq
  exact hid (of_decide_eq_true heq ▸ h.batches row hrow)

/-- A result that is staged is that of a claim that holds its job, and brings the batch. -/
theorem System.stages_cases (h : sys.stages env id action = true) :
    ∃ now claim staging, action = .stageResult now claim staging ∧ claim.id = id ∧
      Returns (stageResult env now claim staging) sys.store ()
        (sys.step env action).store := by
  cases action with
  | stageResult now claim staging =>
    simp only [System.stages, Bool.and_eq_true, decide_eq_true_eq] at h
    obtain ⟨⟨hmem, hid⟩, hok⟩ := h
    refine ⟨now, claim, staging, rfl, hid, ?_⟩
    rcases commit_cases (stageResult env now claim staging) sys.store with
      ⟨u, s', heq, hreturns⟩ | ⟨e, heq⟩
    · simp only [System.step, if_pos hmem, heq]
      exact hreturns
    · rw [heq] at hok
      cases hok
  | _ => cases h

/-- A step that stages no result of a job brings no batch of it. -/
theorem System.Sound.batchCount_step (h : sys.Sound) (env : Env) (id : Uuid) (action : Action) :
    (sys.step env action).store.batchCount id =
      sys.store.batchCount id + if sys.stages env id action then 1 else 0 := by
  by_cases hstages : sys.stages env id action = true
  · rw [if_pos hstages]
    obtain ⟨now, claim, staging, rfl, rfl, hreturns⟩ := System.stages_cases hstages
    obtain ⟨-, -, -, snapshots, references, next, s₁, -, hfinish, row, -, -, heq⟩ :=
      stageResult_cases hreturns
    rw [heq]
    change List.countP _ (s₁.analyticsOutbox ++ [_]) = _
    rw [List.countP_append, hfinish.analyticsOutbox_eq]
    simp [Store.batchCount, resultBatch]
  · rw [if_neg hstages, Nat.add_zero]
    by_cases hid : id ∈ sys.store.captureJobs.map CaptureJob.id
    · obtain ⟨c, hshows, hclaims⟩ := h.keyed.store.exists_shows hid _
      obtain ⟨c', hshows', hstep⟩ := System.Shows.step env h.keyed ⟨hshows, hclaims.symm⟩ action
      rw [hshows.batchCount_eq, hshows'.store.batchCount_eq]
      rcases hstep.batches_eq with heq | ⟨now, claim, staging, batchId, rfl, hheld, hnone, heq⟩
      · rw [heq]
      -- The case got a batch, so the transaction was committed for a claim that was given.
      · refine absurd ?_ hstages
        have hchanged : sys.step env (.stageResult now claim staging) ≠ sys := by
          intro hsame
          rw [hsame] at hshows'
          rw [← hshows'.unique ⟨hshows, hclaims.symm⟩, heq] at hnone
          cases hnone
        simp only [System.stages, Bool.and_eq_true, decide_eq_true_eq]
        simp only [System.step] at hchanged
        have hmem : claim ∈ sys.claims := by
          by_contra hmem
          rw [if_neg hmem] at hchanged
          exact hchanged rfl
        rw [if_pos hmem] at hchanged
        refine ⟨⟨hmem, (CaptureJob.id_of_isHeldBy hheld).symm.trans hshows.job_id⟩, ?_⟩
        rcases commit_cases (stageResult env now claim staging) sys.store with
          ⟨u, s', hok, -⟩ | ⟨e, herror⟩
        · rw [hok]
          rfl
        · rw [herror] at hchanged
          exact absurd rfl hchanged
    · rw [h.keyed.store.batchCount_eq_zero hid]
      by_cases hid' : id ∈ (sys.step env action).store.captureJobs.map CaptureJob.id
      · obtain ⟨c, hshows, hclaims⟩ := (h.keyed.step action).store.exists_shows hid' _
        obtain ⟨now, hash, envelope, reconstructionId, rfl⟩ :=
          System.Shows.new h.keyed ⟨hshows, hclaims.symm⟩ hid
        exact hshows.batchCount_eq
      · exact (h.keyed.step action).store.batchCount_eq_zero hid'

/-- The batches of a job are the results that were staged. -/
theorem System.Sound.batchCount_run (h : sys.Sound) (env : Env) (id : Uuid)
    (actions : List Action) :
    (run (System.step env) sys actions).store.batchCount id =
      sys.store.batchCount id + stagings env id sys actions := by
  induction actions generalizing sys with
  | nil => rfl
  | cons action actions ih =>
    rw [run_cons, ih (h.step env action), h.batchCount_step, stagings]
    omega

theorem System.Sound.batchCount_le (h : sys.Sound) (id : Uuid) : sys.store.batchCount id ≤ 1 := by
  by_cases hid : id ∈ sys.store.captureJobs.map CaptureJob.id
  · obtain ⟨c, hshows, hclaims⟩ := h.keyed.store.exists_shows hid _
    rw [hshows.batchCount_eq]
    exact (h.cases ⟨hshows, hclaims.symm⟩).batches_le
  · rw [h.keyed.store.batchCount_eq_zero hid]
    exact Nat.zero_le 1

/-! ### Stale workers -/

/-- Whether the owner or the generation of a claim is not the recorded one. -/
def Store.IsStale (claim : ClaimedJob) (s : Store) : Prop :=
  ∀ job ∈ s.captureJobs, job.id = claim.id →
    job.leaseOwner ≠ some claim.leaseOwner ∨ job.leaseGeneration ≠ claim.leaseGeneration

/-- Whether a delivery is not the recorded one. -/
def Store.IsStaleOutbox (outbox : ClaimedOutbox) (s : Store) : Prop :=
  ∀ row ∈ s.analyticsOutbox, row.id = outbox.id →
    row.status ≠ .claimed ∨ row.leaseOwner ≠ some outbox.leaseOwner

theorem Store.IsStale.isHeldBy {s : Store} {claim : ClaimedJob} (h : s.IsStale claim) :
    ∀ job ∈ s.captureJobs, job.isHeldBy claim = false := by
  intro job hjob
  by_contra hheld
  obtain ⟨hid, -, howner, hgeneration⟩ :=
    CaptureJob.isHeldBy_iff.1 (Bool.eq_true_of_not_eq_false hheld)
  exact (h job hjob hid).elim (fun hne ↦ hne howner) fun hne ↦ hne hgeneration

theorem Store.IsStaleOutbox.isClaimedBy {s : Store} {outbox : ClaimedOutbox}
    (h : s.IsStaleOutbox outbox) : ∀ row ∈ s.analyticsOutbox, row.isClaimedBy outbox = false := by
  intro row hrow
  by_contra hclaimed
  have hclaimed := Bool.eq_true_of_not_eq_false hclaimed
  simp only [AnalyticsRow.isClaimedBy, Bool.and_eq_true, decide_eq_true_eq] at hclaimed
  exact (h row hrow hclaimed.1.1).elim (fun hne ↦ hne hclaimed.1.2) fun hne ↦ hne hclaimed.2

/-- The transactions in which a worker comes back with a claim. -/
theorem System.step_of_isStale {claim : ClaimedJob} (h : sys.store.IsStale claim)
    (haction : action.claim? = some claim) : sys.step env action = sys := by
  have hnone := h.isHeldBy
  have hcommit : ∀ {α : Type} (body : Tx α), (∀ a s', Returns body sys.store a s' →
      s' = sys.store) → { sys with store := (commit body sys.store).2 } = sys := by
    intro α body hbody
    rw [commit_snd_eq hbody]
  cases action with
  | extendLease now claim =>
    obtain rfl := Option.some.inj haction
    refine ite_eq_right_iff.2 fun _ ↦ hcommit _ fun held s' hreturns ↦ ?_
    rw [(extendLease_cases hreturns).2, Table.update_eq_self hnone]
  | stageReconstructionArtifacts now claim objects =>
    obtain rfl := Option.some.inj haction
    refine ite_eq_right_iff.2 fun _ ↦ hcommit _ fun u s' hreturns ↦ ?_
    obtain ⟨⟨job, hjob, hheld⟩, -⟩ := stageReconstructionArtifacts_cases hreturns
    rw [hnone job hjob] at hheld
    cases hheld
  | stageResult now claim staging =>
    obtain rfl := Option.some.inj haction
    refine ite_eq_right_iff.2 fun _ ↦ hcommit _ fun u s' hreturns ↦ ?_
    obtain ⟨⟨job, hjob, hheld⟩, -⟩ := stageResult_cases hreturns
    rw [hnone job hjob] at hheld
    cases hheld
  | failJob now claim error =>
    obtain rfl := Option.some.inj haction
    refine ite_eq_right_iff.2 fun _ ↦ hcommit _ fun u s' hreturns ↦ ?_
    rcases failJob_cases hreturns with heq | ⟨job, hjob, hheld, -⟩
    · exact heq
    · rw [hnone job hjob] at hheld
      cases hheld
  | _ => cases haction

/-- The transactions in which a worker comes back with a delivery. -/
theorem System.step_of_isStaleOutbox {outbox : ClaimedOutbox}
    (h : sys.store.IsStaleOutbox outbox) :
    sys.step env (.completeAnalytics now outbox) = sys ∧
      sys.step env (.retryAnalytics now outbox) = sys := by
  have hnone := h.isClaimedBy
  have hcommit : ∀ {α : Type} (body : Tx α), (∀ a s', Returns body sys.store a s' →
      s' = sys.store) → { sys with store := (commit body sys.store).2 } = sys := by
    intro α body hbody
    rw [commit_snd_eq hbody]
  constructor
  · refine ite_eq_right_iff.2 fun _ ↦ hcommit _ fun u s' hreturns ↦ ?_
    obtain ⟨⟨row, hrow, hclaimed⟩, -⟩ := completeAnalytics_cases hreturns
    rw [hnone row hrow] at hclaimed
    cases hclaimed
  · refine ite_eq_right_iff.2 fun _ ↦ hcommit _ fun u s' hreturns ↦ ?_
    rw [retryAnalytics_cases hreturns, Store.batchesMoved, Table.update_eq_self hnone]

/-! ### Jobs that are over -/

/-- No step takes a job out of a terminal status. -/
theorem CaseStep.status_eq (h : CaseStep env action c c') (hterminal : c.job.status.isTerminal = true) :
    c'.job.status = c.job.status := by
  have hover : ∀ {status : JobStatus}, status = .queued ∨ status = .rendering ∨
      status = .persisting → c.job.status ≠ status := by
    rintro status (rfl | rfl | rfl) heq <;> rw [heq] at hterminal <;> cases hterminal
  have hheldBy : ∀ {claim : ClaimedJob}, c.job.isHeldBy claim = true → False :=
    fun hheld ↦ hover (.inr (.inl rfl)) (CaptureJob.isHeldBy_iff.1 hheld).2.1
  cases h with
  | exhausted messageId h =>
    simp only [CaptureJob.isExhausted, Bool.and_eq_true, decide_eq_true_eq] at h
    exact absurd h.1.1 (hover (.inr (.inl rfl)))
  | requeued h =>
    simp only [CaptureJob.isExpired, Bool.and_eq_true, decide_eq_true_eq] at h
    exact absurd h.1.1 (hover (.inr (.inl rfl)))
  | claimed messageId h =>
    simp only [CaptureJob.isAvailable, Bool.and_eq_true, decide_eq_true_eq] at h
    exact absurd h.1.1 (hover (.inl rfl))
  | reclaimed messageId h =>
    simp only [CaptureJob.isExpired, Bool.and_eq_true, decide_eq_true_eq] at h
    exact absurd h.1.1 (hover (.inr (.inl rfl)))
  | resultStaged snapshotId batchId messageId hclaim hheld hbatches hlimits hfinish =>
    exact (hheldBy hheld).elim
  | retried availableAt hheld hattempts => exact (hheldBy hheld).elim
  | failed messageId hclaim hheld hattempts => exact (hheldBy hheld).elim
  | completed messageId h => exact absurd h (hover (.inr (.inr rfl)))
  | artifactDeleted artifact hmem hids hclaimed hkind =>
    unfold Case.expire
    split_ifs <;> rfl
  | same | extended | artifactsStaged | artifactClaimed | artifactPostponed => rfl

/-- A job that is over has its status for ever. -/
theorem System.Sound.status_run (h : sys.Sound) {job : CaptureJob}
    (hjob : job ∈ sys.store.captureJobs) (hterminal : job.status.isTerminal = true) (env : Env)
    (actions : List Action) :
    ∃ c, (run (System.step env) sys actions).Shows job.id c ∧ c.job.status = job.status := by
  obtain ⟨c, hshows, rfl, -⟩ := h.exists_case hjob
  have hrun : (run (System.step env) sys actions).Sound ∧
      ∃ c', (run (System.step env) sys actions).Shows c.job.id c' ∧
        c'.job.status = c.job.status := by
    refine @run_invariant _ _ (System.step env) (fun sys : System ↦ sys.Sound ∧
      ∃ c', sys.Shows c.job.id c' ∧ c'.job.status = c.job.status) ?_ _ ⟨h, c, hshows, rfl⟩ actions
    rintro sys action ⟨hsound, c₁, hshows₁, hstatus⟩
    obtain ⟨c₂, hshows₂, hstep⟩ := System.Shows.step env hsound.keyed hshows₁ action
    refine ⟨hsound.step env action, c₂, hshows₂, ?_⟩
    rw [hstep.status_eq (hstatus ▸ hterminal), hstatus]
  exact hrun.2

/-! ### Publication -/

/-- A reconstruction keeps its identifier. -/
theorem CaseStep.reconstruction_id_eq (h : CaseStep env action c c') :
    c'.reconstruction.id = c.reconstruction.id := by
  have hite : ∀ (p : Prop) [Decidable p] (reconstruction : ReconstructionJob),
      reconstruction.id = c.reconstruction.id →
        (if p then reconstruction else c.reconstruction).id = c.reconstruction.id := by
    intro p _ reconstruction heq
    split_ifs
    · exact heq
    · rfl
  cases h with
  | exhausted messageId h => exact hite _ c.reconstruction.fail rfl
  | claimed messageId h => exact hite _ (c.reconstruction.start _) rfl
  | reclaimed messageId h => exact hite _ (c.reconstruction.start _) rfl
  | failed messageId hclaim hheld hattempts => exact hite _ c.reconstruction.fail rfl
  | resultStaged snapshotId batchId messageId hclaim hheld hbatches hlimits hfinish =>
    cases hfinish <;> rfl
  | artifactDeleted artifact hmem hids hclaimed hkind =>
    unfold Case.expire
    split_ifs <;> rfl
  | same | requeued | extended | artifactsStaged | retried | completed | artifactClaimed
  | artifactPostponed => rfl

/-- A reconstruction is published by the result of its own generation, with both artifacts. -/
theorem CaseStep.publishes (h : CaseStep env action c c') (hc : c.Sound)
    (hbefore : c.reconstruction.status.isPublished = false)
    (hafter : c'.reconstruction.status.isPublished = true) :
    ∃ now claim staging, action = .stageResult now claim staging ∧
      c.job.isHeldBy claim = true ∧ (c.staged claim).length = 2 ∧
      c'.artifacts = Table.update (ReconstructionArtifact.isStagedFor c.reconstruction.id
        claim.ownerId claim.leaseGeneration) (ReconstructionArtifact.publish now) c.artifacts ∧
      c'.reconstruction.sourceLeaseGeneration = some claim.leaseGeneration := by
  have hsame : c'.reconstruction = c.reconstruction → False := by
    intro heq
    rw [heq, hbefore] at hafter
    cases hafter
  have hite : ∀ (p : Prop) [Decidable p] (reconstruction : ReconstructionJob),
      reconstruction.status.isPublished = false →
      c'.reconstruction = (if p then reconstruction else c.reconstruction) → False := by
    intro p _ reconstruction hnot heq
    rw [heq] at hafter
    split_ifs at hafter
    · rw [hnot] at hafter
      cases hafter
    · rw [hbefore] at hafter
      cases hafter
  cases h with
  | @resultStaged now claim staging _ c₁ snapshotId batchId messageId hclaim hheld hbatches hlimits hfinish =>
    have hruns := hc.reconstructed.runsFor hc.leased hclaim hheld
    cases hfinish with
    | absent h =>
      rw [hruns] at h
      cases h
    | unpublished h => cases hafter
    | published objects h hobjects hbuild hready =>
      simp only [ReconstructionJob.runsFor, Bool.and_eq_true, decide_eq_true_eq] at hruns
      exact ⟨now, claim, staging, rfl, hheld, hc.stocked.staged_length hready, rfl, hruns.2⟩
  | exhausted messageId h => exact (hite _ c.reconstruction.fail rfl rfl).elim
  | claimed messageId h =>
    exact (hite _ (c.reconstruction.start (c.job.leaseGeneration + 1)) rfl rfl).elim
  | reclaimed messageId h =>
    exact (hite _ (c.reconstruction.start (c.job.leaseGeneration + 1)) rfl rfl).elim
  | failed messageId hclaim hheld hattempts =>
    exact (hite _ c.reconstruction.fail rfl rfl).elim
  | artifactDeleted artifact hmem hids hclaimed hkind =>
    unfold Case.expire at hafter
    split_ifs at hafter with hexpires
    · cases hafter
    · exact absurd hafter (Bool.eq_false_iff.1 hbefore)
  | same | requeued | extended | artifactsStaged | retried | completed | artifactClaimed
  | artifactPostponed => exact (hsame rfl).elim

/-- An artifact that is published after a step and was not before. -/
def BecomesPublished (s s' : Store) (artifact : ReconstructionArtifact) : Prop :=
  artifact ∈ s'.artifacts ∧ artifact.state = .published ∧
    ∀ other ∈ s.artifacts, other.id = artifact.id → other.state ≠ .published

/-- A result changes the artifacts of its own case only. -/
theorem System.Sound.mem_artifacts_of_stageResult (h : sys.Sound) {claim : ClaimedJob}
    {staging : Staging} (hshows : sys.Shows id c) (hheld : c.job.isHeldBy claim = true)
    (hshows' : (sys.step env (.stageResult now claim staging)).Shows id c')
    {artifact : ReconstructionArtifact}
    (hartifact : artifact ∈ (sys.step env (.stageResult now claim staging)).store.artifacts) :
    artifact ∈ c'.artifacts ∨ artifact ∈ sys.store.artifacts := by
  have h' := h.step env (.stageResult now claim staging)
  obtain ⟨otherId, other', hother', hclaims', hmem'⟩ :=
    h'.keyed.store.exists_shows_artifact hartifact fun jobId ↦
      (sys.step env (.stageResult now claim staging)).claims.filter fun claim ↦
        decide (claim.id = jobId)
  by_cases hid : otherId = id
  · subst hid
    rw [← System.Shows.unique ⟨hother', hclaims'.symm⟩ hshows']
    exact .inl hmem'
  · right
    by_cases hjob : otherId ∈ sys.store.captureJobs.map CaptureJob.id
    · obtain ⟨other, hother, hclaims⟩ := h.keyed.store.exists_shows hjob _
      obtain ⟨other₁, hother₁, hstep⟩ := System.Shows.step env h.keyed ⟨hother, hclaims.symm⟩
        (.stageResult now claim staging)
      rw [System.Shows.unique ⟨hother', hclaims'.symm⟩ hother₁] at hmem'
      cases hstep with
      | same => exact (hother.mem_artifacts.1 hmem').1
      | resultStaged snapshotId batchId messageId hclaim hheld' hbatches hlimits hfinish =>
        refine absurd ?_ hid
        rw [← hother.job_id, ← hshows.store.job_id, CaptureJob.id_of_isHeldBy hheld',
          CaptureJob.id_of_isHeldBy hheld]
    · obtain ⟨_, _, _, _, rfl⟩ := System.Shows.new h.keyed ⟨hother', hclaims'.symm⟩ hjob
      cases hmem'

/-- When a reconstruction is published, the two artifacts of its own generation are, and no
others. -/
theorem System.Sound.publishes (h : sys.Sound) {job job' : ReconstructionJob}
    (hjob : job ∈ sys.store.reconstructionJobs)
    (hjob' : job' ∈ (sys.step env action).store.reconstructionJobs) (hid : job'.id = job.id)
    (hbefore : job.status.isPublished = false) (hafter : job'.status.isPublished = true) :
    ∃ archive manifest generation, archive.kind = .staticArchive ∧ manifest.kind = .manifest ∧
      (∀ artifact ∈ [archive, manifest], artifact.reconstructionJobId = job.id ∧
        artifact.generation = generation) ∧
      job'.sourceLeaseGeneration = some generation ∧
      ∀ artifact, BecomesPublished sys.store (sys.step env action).store artifact ↔
        artifact = archive ∨ artifact = manifest := by
  obtain ⟨c, hshows, rfl, hc⟩ := h.exists_case_reconstruction hjob
  obtain ⟨c', hshows', hstep⟩ := System.Shows.step env h.keyed hshows action
  have h' := h.step env action
  have hsameId : c'.reconstruction.id = c.reconstruction.id := hstep.reconstruction_id_eq
  obtain rfl := hshows'.store.eq_reconstruction h'.keyed.store hjob' (hid.trans hsameId.symm)
  obtain ⟨now, claim, staging, rfl, hheld, hlength, hartifacts, hsource⟩ :=
    hstep.publishes hc hbefore hafter
  obtain ⟨archive, manifest, harchive, hmanifest, hpair⟩ := hc.stocked.exists_staged hlength
  have hstaged : ∀ artifact, artifact ∈ c.staged claim → artifact ∈ c.artifacts ∧
      artifact.reconstructionJobId = c.reconstruction.id ∧
      artifact.generation = claim.leaseGeneration ∧ artifact.state = .staged := by
    intro artifact hartifact
    obtain ⟨hmem, hsel⟩ := List.mem_filter.1 hartifact
    simp only [ReconstructionArtifact.isStagedFor, Bool.and_eq_true, decide_eq_true_eq] at hsel
    exact ⟨hmem, hsel.1.1.1, hsel.1.2, hsel.2⟩
  refine ⟨archive.publish now, manifest.publish now, claim.leaseGeneration, harchive, hmanifest,
    ?_, hsource, fun artifact ↦ ?_⟩
  · intro artifact hartifact
    rcases List.mem_pair.1 hartifact with rfl | rfl
    · have h := hstaged archive ((hpair archive).2 (.inl rfl))
      exact ⟨h.2.1, h.2.2.1⟩
    · have h := hstaged manifest ((hpair manifest).2 (.inr rfl))
      exact ⟨h.2.1, h.2.2.1⟩
  constructor
  · rintro ⟨hmem, hpublished, hnew⟩
    rcases h.mem_artifacts_of_stageResult hshows hheld hshows' hmem with hmem | hmem
    · rw [hartifacts] at hmem
      obtain ⟨old, hold, heq⟩ := Table.mem_update.1 hmem
      by_cases hsel : old.isStagedFor c.reconstruction.id claim.ownerId
          claim.leaseGeneration = true
      · rw [if_pos hsel] at heq
        have hmem : old ∈ c.staged claim := List.mem_filter.2 ⟨hold, hsel⟩
        rcases (hpair old).1 hmem with rfl | rfl
        · exact .inl heq.symm
        · exact .inr heq.symm
      · rw [if_neg hsel] at heq
        subst heq
        exact absurd hpublished (hnew old (hshows.store.mem_artifacts.1 hold).1 rfl)
    · exact absurd hpublished (hnew artifact hmem rfl)
  · have hbecomes : ∀ staged ∈ c.staged claim, BecomesPublished sys.store
        (sys.step env (.stageResult now claim staging)).store (staged.publish now) := by
      intro staged hmem
      obtain ⟨hold, -, -, hstate⟩ := hstaged staged hmem
      refine ⟨?_, rfl, fun other hother heq ↦ ?_⟩
      · refine (hshows'.store.mem_artifacts.1 ?_).1
        rw [hartifacts]
        exact Table.mem_update_of_sel hold (List.mem_filter.1 hmem).2
      · have hsame : other = staged := Table.eq_of_key_eq h.keyed.store.artifacts hother
          (hshows.store.mem_artifacts.1 hold).1 heq
        rw [hsame, hstate]
        simp
    rintro (rfl | rfl)
    · exact hbecomes archive ((hpair archive).2 (.inl rfl))
    · exact hbecomes manifest ((hpair manifest).2 (.inr rfl))

/-! ### The machine -/

/-- For every run of the capture worker, and every further step: a job is attempted at most three
times; a result is staged by the holder of its job, at most once, and is the job's only batch; a
worker that is not the recorded one changes nothing; a job that is over keeps its status; a
reconstruction runs only while its job does or waits for a retry; and a reconstruction is published
together with the two artifacts of its own generation. -/
theorem capture_machine (env : Env) (actions : List Action) :
    let sys := System.after env actions
    (∀ job ∈ sys.store.captureJobs, job.attemptCount ≤ 3 ∧
      sys.claims.countP (fun claim ↦ decide (claim.id = job.id)) = job.attemptCount) ∧
    (∀ id, stagings env id {} actions ≤ 1 ∧
      sys.store.batchCount id = stagings env id {} actions) ∧
    (∀ id action, sys.stages env id action = true → ∃ claim, action.claim? = some claim ∧
      claim.id = id ∧ ∃ job ∈ sys.store.captureJobs, job.isHeldBy claim = true) ∧
    (∀ claim action, sys.store.IsStale claim → action.claim? = some claim →
      sys.step env action = sys) ∧
    (∀ outbox now, sys.store.IsStaleOutbox outbox →
      sys.step env (.completeAnalytics now outbox) = sys ∧
        sys.step env (.retryAnalytics now outbox) = sys) ∧
    (∀ job ∈ sys.store.captureJobs, job.status.isTerminal = true → ∀ later,
      ∃ job' ∈ (System.after env (actions ++ later)).store.captureJobs,
        job'.id = job.id ∧ job'.status = job.status) ∧
    (∀ reconstruction ∈ sys.store.reconstructionJobs, reconstruction.status = .running →
      ∃ job ∈ sys.store.captureJobs, job.id = reconstruction.captureJobId ∧
        (job.status = .rendering ∨ job.status = .queued ∧ 1 ≤ job.attemptCount)) ∧
    (∀ action, ∀ reconstruction ∈ sys.store.reconstructionJobs,
      ∀ reconstruction' ∈ (sys.step env action).store.reconstructionJobs,
      reconstruction'.id = reconstruction.id → reconstruction.status.isPublished = false →
      reconstruction'.status.isPublished = true →
      ∃ archive manifest generation, archive.kind = .staticArchive ∧ manifest.kind = .manifest ∧
        (∀ artifact ∈ [archive, manifest], artifact.reconstructionJobId = reconstruction.id ∧
          artifact.generation = generation) ∧
        reconstruction'.sourceLeaseGeneration = some generation ∧
        ∀ artifact, BecomesPublished sys.store (sys.step env action).store artifact ↔
          artifact = archive ∨ artifact = manifest) := by
  intro sys
  have h : sys.Sound := System.sound_after env actions
  have hcount : ∀ id, sys.store.batchCount id = stagings env id {} actions := by
    intro id
    have hempty : (({} : System)).Sound := System.sound_after env []
    have hrun := hempty.batchCount_run env id actions
    rw [show (({} : System)).store.batchCount id = 0 from rfl, Nat.zero_add] at hrun
    exact hrun
  refine ⟨?_, ?_, ?_, ?_, ?_, ?_, ?_, ?_⟩
  · intro job hjob
    obtain ⟨c, hshows, rfl, hc⟩ := h.exists_case hjob
    refine ⟨hc.leased.attempts_le, ?_⟩
    rw [List.countP_eq_length_filter, hshows.claims, hc.leased.claims]
  · intro id
    rw [← hcount]
    exact ⟨h.batchCount_le id, rfl⟩
  · intro id action hstages
    obtain ⟨now, claim, staging, rfl, hid, hreturns⟩ := System.stages_cases hstages
    exact ⟨claim, rfl, hid, (stageResult_cases hreturns).1⟩
  · intro claim action hstale haction
    exact System.step_of_isStale hstale haction
  · intro outbox now hstale
    exact System.step_of_isStaleOutbox hstale
  · intro job hjob hterminal later
    obtain ⟨c, hshows, hstatus⟩ := h.status_run hjob hterminal env later
    rw [System.after, run_append]
    exact ⟨c.job, hshows.store.job_mem, hshows.store.job_id, hstatus⟩
  · intro reconstruction hreconstruction hrunning
    obtain ⟨c, hshows, rfl, hc⟩ := h.exists_case_reconstruction hreconstruction
    refine ⟨c.job, hshows.store.job_mem, hshows.store.job_id, ?_⟩
    have hactive : c.reconstruction.status.isActive = true := by
      rw [hrunning]
      rfl
    rcases hc.reconstructed.active.1 hactive with hqueued | hrendering
    · refine .inr ⟨hqueued, ?_⟩
      rw [← hc.leased.generation]
      exact (hc.reconstructed.running hrunning).2
    · exact .inl hrendering
  · intro action reconstruction hreconstruction reconstruction' hreconstruction' hid hbefore hafter
    exact h.publishes hreconstruction hreconstruction' hid hbefore hafter

end WebLens.Capture
