import WebLens.Capture.Machine

/-!
# Events of a case

The events of a capture are numbered without gaps, and only the last one can be terminal. A capture
that is over has a last event that tells its status and its counts.
-/

set_option autoImplicit false
set_option relaxedAutoImplicit false

namespace WebLens.Capture

open Lib Lib.Utf8 Lib.Transaction

variable {env : Env} {action : Action} {c c₁ c' : Case} {id : Uuid} {now : Instant} {sys : System}

/-- Whether a reported status is final. -/
def ProgressStatus.isTerminal : ProgressStatus → Bool
  | .completed | .failed => true
  | .running | .indexing => false

/-- A code or a message that fits its column: short, and of ASCII characters. -/
def IsShort (size : ℕ) (text : String) : Prop :=
  text.toList.length ≤ size ∧ ∀ char ∈ text.toList, char.val < 128

instance (size : ℕ) (text : String) : Decidable (IsShort size text) :=
  decidable_of_iff
    (text.toList.length ≤ size ∧ text.toList.all (fun char ↦ decide (char.val < 128)) = true)
    (and_congr_right' (by simp only [List.all_eq_true, decide_eq_true_eq]))

/-- What every event says of its capture. -/
structure IsReportOf (job : CaptureJob) (event : CaptureEventEnvelope) : Prop where
  aggregateType : event.aggregateType = "CAPTURE"
  messageType : event.messageType = "CAPTURE_PROGRESS"
  contractVersion : event.contractVersion = 1
  aggregateId : event.aggregateId = job.id
  captureRequestId : event.payload.captureRequestId = job.id
  ownerId : event.payload.ownerId = job.ownerId
  published_le : event.payload.analyticsPublishedCount ≤ event.payload.analyticsExpectedCount
  expected_le : event.payload.analyticsExpectedCount ≤ 601
  terminalCode : ∀ code, event.payload.terminalCode = some code → IsShort 64 code
  terminalMessage : ∀ message, event.payload.terminalMessage = some message → IsShort 500 message

/-- The event tells how the job ended. -/
structure IsOutcomeOf (job : CaptureJob) (event : CaptureEventEnvelope) : Prop where
  status : job.status = .completed ∧ event.payload.status = .completed ∨
    job.status = .failed ∧ event.payload.status = .failed
  expected : event.payload.analyticsExpectedCount = job.analyticsExpectedCount
  published : event.payload.analyticsPublishedCount = job.analyticsPublishedCount
  objectCount : event.payload.objectCount = job.objectCount
  objectBytes : event.payload.totalObjectBytes = job.totalObjectBytes

/-- The counts of a job, which are those of its result. -/
structure IsCounted (job : CaptureJob) : Prop where
  expected_le : job.analyticsExpectedCount ≤ 601
  none : job.status = .queued ∨ job.status = .rendering ∨ job.status = .failed →
    job.analyticsExpectedCount = 0 ∧ job.analyticsPublishedCount = 0 ∧ job.objectCount = 0 ∧
      job.totalObjectBytes = 0

/-- The events of a case are in order and end with its outcome. -/
structure Case.Reported (c : Case) : Prop where
  versions : c.events.map CaptureEventEnvelope.aggregateVersion =
    List.range' 1 c.job.eventVersion
  reports : ∀ event ∈ c.events, IsReportOf c.job event
  counted : IsCounted c.job
  last : ∀ event ∈ c.events, event.payload.status.isTerminal = true →
    c.job.status.isTerminal = true ∧ event.aggregateVersion = c.job.eventVersion
  outcome : c.job.status.isTerminal = true → ∃ event ∈ c.events,
    event.aggregateVersion = c.job.eventVersion ∧ IsOutcomeOf c.job event

namespace Case.Reported

theorem new {hash : ByteString} {envelope : CaptureCommandEnvelope} {reconstructionId : Uuid} :
    (newCase now hash envelope reconstructionId).Reported where
  versions := rfl
  reports _ h := by cases h
  counted := ⟨Nat.zero_le _, fun _ ↦ ⟨rfl, rfl, rfl, rfl⟩⟩
  last _ h := by cases h
  outcome h := by cases h

/-- Steps without an event, of a capture that is not over by the step. -/
theorem keep (hc : c.Reported) (hevents : c'.events = c.events) (hid : c'.job.id = c.job.id)
    (howner : c'.job.ownerId = c.job.ownerId) (hversion : c'.job.eventVersion = c.job.eventVersion)
    (hstatus : c'.job.status = c.job.status ∨
      c.job.status.isTerminal = false ∧ c'.job.status.isTerminal = false)
    (hcounted : IsCounted c'.job)
    (hcounts : c'.job.analyticsExpectedCount = c.job.analyticsExpectedCount ∧
      c'.job.analyticsPublishedCount = c.job.analyticsPublishedCount ∧
      c'.job.objectCount = c.job.objectCount ∧
      c'.job.totalObjectBytes = c.job.totalObjectBytes) : c'.Reported where
  versions := by rw [hevents, hversion, hc.versions]
  reports event hevent := by
    have h := hc.reports event (hevents ▸ hevent)
    exact { h with
      aggregateId := h.aggregateId.trans hid.symm
      captureRequestId := h.captureRequestId.trans hid.symm
      ownerId := h.ownerId.trans howner.symm }
  counted := hcounted
  last event hevent hterminal := by
    have h := hc.last event (hevents ▸ hevent) hterminal
    rw [hversion]
    refine ⟨?_, h.2⟩
    rcases hstatus with heq | ⟨hopen, -⟩
    · exact heq ▸ h.1
    · rw [hopen] at h
      cases h.1
  outcome hterminal := by
    rcases hstatus with heq | ⟨-, hopen⟩
    · obtain ⟨event, hevent, hlast, houtcome⟩ := hc.outcome (heq ▸ hterminal)
      refine ⟨event, hevents ▸ hevent, hlast.trans hversion.symm, ?_⟩
      exact {
        status := heq ▸ houtcome.status
        expected := houtcome.expected.trans hcounts.1.symm
        published := houtcome.published.trans hcounts.2.1.symm
        objectCount := houtcome.objectCount.trans hcounts.2.2.1.symm
        objectBytes := houtcome.objectBytes.trans hcounts.2.2.2.symm }
    · rw [hopen] at hterminal
      cases hterminal

/-- A step with an event, of a capture that was not over. -/
theorem report (hc : c.Reported) (c₁ : Case) (hopen : c.job.status.isTerminal = false)
    (hevents : c₁.events = c.events) (hid : c₁.job.id = c.job.id)
    (howner : c₁.job.ownerId = c.job.ownerId) (hversion : c₁.job.eventVersion = c.job.eventVersion)
    (hcounted : IsCounted c₁.job) {messageId correlationId : Uuid} {status : ProgressStatus}
    {counts : Counts} {terminalCode terminalMessage : Option String}
    (hterminal : status.isTerminal = c₁.job.status.isTerminal)
    (hpublished : counts.published ≤ counts.expected) (hexpected : counts.expected ≤ 601)
    (hcode : ∀ code, terminalCode = some code → IsShort 64 code)
    (hmessage : ∀ message, terminalMessage = some message → IsShort 500 message)
    (houtcome : status.isTerminal = true → IsOutcomeOf c₁.job
      (progressEvent now messageId c₁.job.id c.job.ownerId correlationId (c₁.job.eventVersion + 1)
        status counts terminalCode terminalMessage).payload) :
    (c₁.withEvent now messageId c.job.ownerId correlationId status counts terminalCode
      terminalMessage).Reported := by
  have hreport : IsReportOf c₁.job (progressEvent now messageId c₁.job.id c.job.ownerId correlationId
      (c₁.job.eventVersion + 1) status counts terminalCode terminalMessage).payload :=
    ⟨rfl, rfl, rfl, rfl, rfl, howner.symm, hpublished, hexpected, hcode, hmessage⟩
  constructor
  · change (c₁.events ++ [_]).map _ = List.range' 1 (c₁.job.eventVersion + 1)
    rw [List.map_append, hevents, hc.versions, hversion, List.range'_concat]
    simp [progressEvent, Nat.add_comm]
  · intro event hevent
    rcases List.mem_append.1 hevent with hevent | hevent
    · have h := hc.reports event (hevents ▸ hevent)
      exact { h with
        aggregateId := h.aggregateId.trans hid.symm
        captureRequestId := h.captureRequestId.trans hid.symm
        ownerId := h.ownerId.trans howner.symm }
    · rw [List.mem_singleton.1 hevent]
      exact { hreport with }
  · exact { hcounted with }
  · intro event hevent hfinal
    rcases List.mem_append.1 hevent with hevent | hevent
    · have h := hc.last event (hevents ▸ hevent) hfinal
      rw [hopen] at h
      cases h.1
    · rw [List.mem_singleton.1 hevent] at hfinal ⊢
      exact ⟨hterminal ▸ hfinal, rfl⟩
  · intro hfinal
    exact ⟨_, List.mem_append_right _ (List.mem_singleton_self _), rfl,
      { houtcome (hterminal ▸ hfinal) with }⟩

end Case.Reported

/-! ### Codes -/

/-- An error code is stored as capitals, digits and underscores. -/
theorem isShort_boundedErrorCode (env : Env) (raw : String) :
    IsShort 64 (boundedErrorCode env raw) := by
  unfold boundedErrorCode
  dsimp only
  split_ifs with hempty
  · decide +kernel
  · unfold IsShort
    rw [String.toList_ofList]
    refine ⟨List.length_take_le _ _, fun char hchar ↦ ?_⟩
    obtain ⟨source, -, rfl⟩ := List.mem_map.1 (List.mem_of_mem_take hchar)
    split_ifs with hkept
    · simp only [Bool.or_eq_true, Bool.and_eq_true, decide_eq_true_eq] at hkept
      have hZ : 'Z'.val < 128 := by decide
      have h9 : '9'.val < 128 := by decide
      rcases hkept with (h | h) | rfl
      · exact UInt32.lt_of_le_of_lt (show source.val ≤ 'Z'.val from h.2) hZ
      · exact UInt32.lt_of_le_of_lt (show source.val ≤ '9'.val from h.2) h9
      · decide +kernel
    · decide +kernel

theorem isShort_messages : ∀ text, text = "Capture lease expired after bounded retries" ∨
    text = "Capture failed after bounded retries" → IsShort 500 text := by
  rintro text (rfl | rfl) <;> decide +kernel

/-! ### Steps -/

theorem IsCounted.of_eq {job job' : CaptureJob} (h : IsCounted job)
    (hcounts : job'.analyticsExpectedCount = job.analyticsExpectedCount ∧
      job'.analyticsPublishedCount = job.analyticsPublishedCount ∧
      job'.objectCount = job.objectCount ∧ job'.totalObjectBytes = job.totalObjectBytes)
    (hstatus : job.status = .queued ∨ job.status = .rendering ∨ job.status = .failed) :
    IsCounted job' where
  expected_le := hcounts.1 ▸ h.expected_le
  none _ := by
    rw [hcounts.1, hcounts.2.1, hcounts.2.2.1, hcounts.2.2.2]
    exact h.none hstatus

namespace Case.Reported

/-- A capture that fails. -/
theorem fail (hc : c.Reported) (hstatus : c.job.status = .rendering) {code message : String}
    (hcode : IsShort 64 code) (hmessage : IsShort 500 message) {messageId correlationId : Uuid} :
    ((Case.failReconstruction { c with job := c.job.fail code message }).withEvent now messageId
      c.job.ownerId correlationId .failed {} (some code) (some message)).Reported := by
  have hcounts := hc.counted.none (.inr (.inl hstatus))
  have hopen : c.job.status.isTerminal = false := by
    rw [hstatus]
    rfl
  refine hc.report (Case.failReconstruction { c with job := c.job.fail code message }) hopen rfl
    rfl rfl rfl (hc.counted.of_eq ⟨rfl, rfl, rfl, rfl⟩ (.inr (.inl hstatus))) rfl ?_ ?_ ?_ ?_
    fun _ ↦ ?_
  · exact le_rfl
  · exact Nat.zero_le _
  · rintro _ ⟨⟩
    exact hcode
  · rintro _ ⟨⟩
    exact hmessage
  · exact {
      status := .inr ⟨rfl, rfl⟩
      expected := hcounts.1.symm
      published := hcounts.2.1.symm
      objectCount := hcounts.2.2.1.symm
      objectBytes := hcounts.2.2.2.symm }

/-- A capture that waits again. -/
theorem requeue (hc : c.Reported) (hstatus : c.job.status = .rendering) (availableAt : Instant)
    (code : Option String) :
    Case.Reported { c with job := c.job.requeue availableAt code } := by
  refine hc.keep rfl rfl rfl rfl (.inr ⟨?_, rfl⟩)
    (hc.counted.of_eq ⟨rfl, rfl, rfl, rfl⟩ (.inr (.inl hstatus))) ⟨rfl, rfl, rfl, rfl⟩
  rw [hstatus]
  rfl

/-- A capture that a worker claims. -/
theorem claim (hc : c.Reported) (hstatus : c.job.status = .queued) (workerId messageId : Uuid) :
    (c.claim now workerId messageId).Reported := by
  have hopen : c.job.status.isTerminal = false := by
    rw [hstatus]
    rfl
  have h : (Case.withEvent now messageId c.job.ownerId c.job.correlationId .running {} none none
      { c with job := c.job.claim now workerId
               claims := c.job.claimed workerId :: c.claims }).Reported := by
    refine hc.report { c with
        job := c.job.claim now workerId, claims := c.job.claimed workerId :: c.claims } hopen rfl
      rfl rfl rfl (hc.counted.of_eq ⟨rfl, rfl, rfl, rfl⟩ (.inl hstatus)) rfl ?_ ?_ ?_ ?_ ?_
    · exact le_rfl
    · exact Nat.zero_le _
    · rintro _ ⟨⟩
    · rintro _ ⟨⟩
    · rintro ⟨⟩
  exact { h with }

/-- A capture whose result is stored. -/
theorem store (hc : c.Reported) (hstatus : c.job.status = .rendering) {claim : ClaimedJob}
    (howner : claim.ownerId = c.job.ownerId) {staging : Staging}
    (hlimits : staging.result.network.length ≤ 500 ∧ staging.resources.length ≤ 100)
    (hevents : c₁.events = c.events) (hjob : c₁.job = c.job) (batchId messageId : Uuid) :
    (c₁.store now claim staging batchId messageId).Reported := by
  have hopen : c.job.status.isTerminal = false := by
    rw [hstatus]
    rfl
  have hexpected : staging.expected ≤ 601 := by
    unfold Staging.expected
    omega
  unfold Case.store
  rw [hjob, howner]
  refine hc.report _ hopen ?_ ?_ ?_ ?_ ⟨?_, ?_⟩ rfl ?_ ?_ ?_ ?_ ?_
  · exact hevents
  · rfl
  · rfl
  · rfl
  · exact hexpected
  · rintro (h | h | h) <;> cases h
  · exact Nat.zero_le _
  · exact hexpected
  · rintro _ ⟨⟩
  · rintro _ ⟨⟩
  · rintro ⟨⟩

/-- A capture whose batch is delivered. -/
theorem complete (hc : c.Reported) (hstatus : c.job.status = .persisting) (messageId : Uuid) :
    (c.complete now messageId).Reported := by
  have hopen : c.job.status.isTerminal = false := by
    rw [hstatus]
    rfl
  refine hc.report { c with job := c.job.complete } hopen rfl rfl rfl rfl
    ⟨hc.counted.expected_le, ?_⟩ rfl ?_ ?_ ?_ ?_ fun _ ↦ ?_
  · rintro (h | h | h) <;> cases h
  · exact le_rfl
  · exact hc.counted.expected_le
  · rintro _ ⟨⟩
  · rintro _ ⟨⟩
  · exact ⟨.inl ⟨rfl, rfl⟩, rfl, rfl, rfl, rfl⟩

end Case.Reported

theorem CaseFinish.events_eq {claim : ClaimedJob} {snapshotId : Uuid} {staging : Staging}
    (h : CaseFinish now claim snapshotId staging c c') : c'.events = c.events := by
  cases h <;> rfl

theorem CaseStep.reported (h : CaseStep env action c c') (hleased : c.Leased) (hc : c.Reported) :
    c'.Reported := by
  have hsame : ∀ {c' : Case}, c'.events = c.events → c'.job.id = c.job.id →
      c'.job.ownerId = c.job.ownerId → c'.job.eventVersion = c.job.eventVersion →
      c'.job.status = c.job.status → c'.job.analyticsExpectedCount = c.job.analyticsExpectedCount ∧
      c'.job.analyticsPublishedCount = c.job.analyticsPublishedCount ∧
      c'.job.objectCount = c.job.objectCount ∧
      c'.job.totalObjectBytes = c.job.totalObjectBytes → c'.Reported := by
    intro c' hevents hid howner hversion hstatus hcounts
    refine hc.keep hevents hid howner hversion (.inl hstatus) ⟨?_, ?_⟩ hcounts
    · rw [hcounts.1]
      exact hc.counted.expected_le
    · rw [hstatus, hcounts.1, hcounts.2.1, hcounts.2.2.1, hcounts.2.2.2]
      exact hc.counted.none
  cases h with
  | same => exact hc
  | exhausted messageId h =>
    simp only [CaptureJob.isExhausted, Bool.and_eq_true, decide_eq_true_eq] at h
    exact hc.fail h.1.1 (by decide +kernel) (isShort_messages _ (.inl rfl))
  | requeued h =>
    simp only [CaptureJob.isExpired, Bool.and_eq_true, decide_eq_true_eq] at h
    exact hc.requeue h.1.1 _ _
  | claimed messageId h =>
    simp only [CaptureJob.isAvailable, Bool.and_eq_true, decide_eq_true_eq] at h
    exact hc.claim h.1.1 _ _
  | @reclaimed now _ workerId _ messageId h =>
    simp only [CaptureJob.isExpired, Bool.and_eq_true, decide_eq_true_eq] at h
    have hc₁ : (c.requeue now).Reported := hc.requeue h.1.1 _ _
    exact hc₁.claim rfl _ _
  | extended hheld => exact hsame rfl rfl rfl rfl rfl ⟨rfl, rfl, rfl, rfl⟩
  | artifactsStaged archiveId manifestId hheld hruns hfresh =>
    exact hsame rfl rfl rfl rfl rfl ⟨rfl, rfl, rfl, rfl⟩
  | resultStaged snapshotId batchId messageId hclaim hheld hbatches hlimits hfinish =>
    exact hc.store (CaptureJob.isHeldBy_iff.1 hheld).2.1 (hleased.owners _ hclaim) hlimits
      hfinish.events_eq hfinish.job_eq batchId messageId
  | retried availableAt hheld hattempts =>
    exact hc.requeue (CaptureJob.isHeldBy_iff.1 hheld).2.1 _ _
  | @failed now claim error _ messageId hclaim hheld hattempts =>
    unfold Case.fail
    rw [hleased.owners claim hclaim]
    exact hc.fail (CaptureJob.isHeldBy_iff.1 hheld).2.1 (isShort_boundedErrorCode env error)
      (isShort_messages _ (.inr rfl))
  | completed messageId h => exact hc.complete h messageId
  | artifactClaimed artifact hmem hids hstate hdue =>
    exact hsame rfl rfl rfl rfl rfl ⟨rfl, rfl, rfl, rfl⟩
  | artifactDeleted artifact hmem hids hclaimed hkind =>
    unfold Case.expire
    split_ifs <;> exact hsame rfl rfl rfl rfl rfl ⟨rfl, rfl, rfl, rfl⟩
  | artifactPostponed => exact hsame rfl rfl rfl rfl rfl ⟨rfl, rfl, rfl, rfl⟩

/-- Events are only appended. -/
theorem CaseStep.events_prefix (h : CaseStep env action c c') : c.events <+: c'.events := by
  cases h with
  | resultStaged snapshotId batchId messageId hclaim hheld hbatches hlimits hfinish =>
    exact ⟨_, congrArg (· ++ _) hfinish.events_eq.symm⟩
  | artifactDeleted artifact hmem hids hclaimed hkind =>
    unfold Case.expire
    split_ifs <;> exact List.prefix_refl _
  | exhausted | claimed | reclaimed | failed | completed => exact List.prefix_append _ _
  | same | requeued | extended | artifactsStaged | retried | artifactClaimed
  | artifactPostponed => exact List.prefix_refl _

end WebLens.Capture
