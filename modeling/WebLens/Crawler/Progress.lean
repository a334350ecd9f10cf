import WebLens.Crawler.Terminal

/-!
# Progress events

Every event in the outbox reports an execution as it was at the version of the event, and
`Advances` says how that execution may have changed since. Only events that would repeat the latest
status of their scan are left out, so the latest event of a scan always tells its public status,
and a terminal execution has an event with its last version.
-/

set_option autoImplicit false
set_option relaxedAutoImplicit false

namespace WebLens.Crawler

open Lib

variable {env : Env} {s s' : Store}

/-! ### How executions advance -/

/-- How far a status is on the way from the queue to the end. -/
def ExecutionStatus.rank : ExecutionStatus → ℕ
  | .queued => 0
  | .running | .indexing => 1
  | .cancelRequested => 2
  | .completed | .partialSuccess | .failed | .cancelled => 3

/-- The pages of an execution that have ended. -/
def Execution.processedCount (e : Execution) : ℤ :=
  e.succeededCount + e.unsuccessfulCount

/-- The second execution is a later version of the first, or the same. -/
structure Advances (e e' : Execution) : Prop where
  fixed : e'.fixed = e.fixed
  version : e.progressVersion ≤ e'.progressVersion
  eq_of_version : e'.progressVersion = e.progressVersion → e' = e
  processed : e.processedCount ≤ e'.processedCount
  rank : e.status.rank ≤ e'.status.rank
  eq_of_terminal : e.status.isTerminal = true → e' = e

theorem Advances.refl (e : Execution) : Advances e e :=
  ⟨rfl, le_refl _, fun _ ↦ rfl, le_refl _, le_refl _, fun _ ↦ rfl⟩

theorem Advances.trans {e₁ e₂ e₃ : Execution} (h₁ : Advances e₁ e₂) (h₂ : Advances e₂ e₃) :
    Advances e₁ e₃ where
  fixed := h₂.fixed.trans h₁.fixed
  version := h₁.version.trans h₂.version
  eq_of_version h := by
    have hle := h₁.version
    have hle' := h₂.version
    obtain rfl := h₂.eq_of_version (by omega)
    exact h₁.eq_of_version h
  processed := h₁.processed.trans h₂.processed
  rank := h₁.rank.trans h₂.rank
  eq_of_terminal h := by
    obtain rfl := h₁.eq_of_terminal h
    exact h₂.eq_of_terminal h

/-- A change that counts a new version of an execution that has not ended. -/
theorem Advances.of_next {e e' : Execution} (hfixed : e'.fixed = e.fixed)
    (hversion : e'.progressVersion = e.progressVersion + 1)
    (hprocessed : e.processedCount ≤ e'.processedCount) (hrank : e.status.rank ≤ e'.status.rank)
    (hactive : e.status.isTerminal = false) : Advances e e' where
  fixed := hfixed
  version := by omega
  eq_of_version h := by omega
  processed := hprocessed
  rank := hrank
  eq_of_terminal h := by
    rw [hactive] at h
    cases h

/-- No status is past a terminal one. -/
theorem ExecutionStatus.rank_le_of_terminal {status status' : ExecutionStatus}
    (h : status'.isTerminal = true) : status.rank ≤ status'.rank := by
  revert h
  cases status <;> cases status' <;> decide

/-- An active execution is not past running. -/
theorem Execution.IsActive.rank_le {e : Execution} (h : e.IsActive) :
    e.status.rank ≤ ExecutionStatus.rank .running := by
  rcases h with h | h <;> simp [h, ExecutionStatus.rank]

/-- Work on an execution advances it. -/
theorem ExecutionStep.advances {e e' : Execution} (h : ExecutionStep e e') : Advances e e' := by
  have hactive := h.not_terminal
  have hfixed := h.fixed
  cases h with
  | claimed now hstatus => exact .of_next hfixed rfl (le_refl _) hstatus.rank_le hactive
  | requeued | staged => exact .of_next hfixed rfl (le_refl _) (le_refl _) hactive
  | published terminalStatus now =>
    have hprocessed : e.processedCount ≤ (e.publish terminalStatus now).processedCount := by
      simp only [Execution.processedCount, Execution.unsuccessfulCount, Execution.publish]
      split_ifs <;> omega
    exact .of_next hfixed rfl hprocessed (le_refl _) hactive
  | finished now _ hfinished =>
    rw [Execution.finish, if_pos hfinished] at hfixed ⊢
    exact .of_next hfixed rfl (le_refl _)
      (ExecutionStatus.rank_le_of_terminal e.outcome_isTerminal) hactive
  | expired total requeued failed now _ _ hfailed =>
    refine .of_next hfixed rfl ?_ (le_refl _) hactive
    simp only [Execution.processedCount, Execution.unsuccessfulCount, Execution.expire]
    omega
  | timedOut total now _ htotal =>
    refine .of_next hfixed rfl ?_ (le_refl _) hactive
    simp only [Execution.processedCount, Execution.unsuccessfulCount, Execution.timeOut]
    omega
  | terminalized now =>
    exact .of_next hfixed rfl (le_refl _)
      (ExecutionStatus.rank_le_of_terminal e.outcome_isTerminal) hactive

theorem ExecutionSteps.advances {e e' : Execution} (h : ExecutionSteps e e') : Advances e e' := by
  induction h with
  | refl => exact .refl _
  | tail _ hstep ih => exact ih.trans hstep.advances

/-- A cancellation advances its execution. -/
theorem Advances.cancel {e : Execution} (hactive : e.status.isTerminal = false)
    {queuedCancelled leasedCancelled : ℤ} (hqueued : 0 ≤ queuedCancelled)
    (hleased : 0 ≤ leasedCancelled) (version : ℤ) (now : Instant) :
    Advances e (e.cancel version queuedCancelled leasedCancelled now) := by
  refine .of_next rfl rfl ?_ ?_ hactive
  · simp only [Execution.processedCount, Execution.unsuccessfulCount, Execution.cancel]
    omega
  · simp only [Execution.cancel]
    split_ifs
    · exact ExecutionStatus.rank_le_of_terminal rfl
    · revert hactive
      cases e.status <;> decide

/-- Every execution has a later version after a change. -/
theorem Change.advances (h : Change env s s') (hkeyed : Keyed s) (hpersists : Persists s s')
    (hconserved : Conserved s) {e : Execution} (he : e ∈ s.executions) :
    ∃ e' ∈ s'.executions, Advances e e' := by
  obtain ⟨e', he', hfixed⟩ := hpersists.executions e he
  refine ⟨e', he', ?_⟩
  have hid := (Execution.of_fixed_eq hfixed).1
  cases h with
  | worked hevolves =>
    obtain ⟨e₀, he₀, hsteps⟩ := hevolves e' he'
    obtain rfl := hkeyed.execution_eq he₀ he
      ((Execution.of_fixed_eq hsteps.fixed).1.symm.trans hid)
    exact hsteps.advances
  | started now receivedAt envelope url hvalid hnew hs' =>
    subst hs'
    rcases List.mem_append.1 he' with he' | he'
    · obtain rfl := hkeyed.execution_eq he' he hid
      exact .refl _
    · have hlt := hkeyed.executionFresh e he
      rw [List.mem_singleton.1 he'] at hid
      exact absurd hid.symm hlt.ne
  | cancelled now receivedAt envelope e₀ hvalid he₀ hscan hactive hexecutions =>
    rcases hexecutions e' he' with rfl | ⟨hold, -⟩
    · obtain rfl := hkeyed.execution_eq he₀ he hid
      exact .cancel hactive (hconserved.counted.nonneg he .queued)
        (hconserved.counted.nonneg he .leased) _ _
    · obtain rfl := hkeyed.execution_eq hold he hid
      exact .refl _

/-! ### What executions show in public -/

/-- The codes and messages with which an execution can end. -/
structure Execution.Presentable (e : Execution) : Prop where
  maxPages : e.maxPages ≤ maxScanPages
  code : e.terminalCode = none ∨ e.terminalCode = some "USER_CANCELLED" ∨
    e.terminalCode = some "SCAN_DEADLINE_EXCEEDED"
  message : e.terminalMessage = none ∨
    e.terminalMessage = some "The scan was cancelled by the user." ∨
    e.terminalMessage = some "The bounded scan deadline was reached."

theorem Execution.Presentable.step {e e' : Execution} (h : e.Presentable)
    (hstep : ExecutionStep e e') : e'.Presentable := by
  cases hstep with
  | finished now hactive hfinished =>
    rw [Execution.finish, if_pos hfinished]
    by_cases hcancel : e.status = .cancelRequested
    · exact ⟨h.maxPages, .inr (.inl (if_pos hcancel)), .inr (.inl (if_pos hcancel))⟩
    · refine ⟨h.maxPages, ?_, ?_⟩
      · simp only [if_neg hcancel]
        exact h.code
      · simp only [if_neg hcancel]
        exact h.message
  | timedOut => exact ⟨h.maxPages, .inr (.inr rfl), .inr (.inr rfl)⟩
  | _ => exact ⟨h.maxPages, h.code, h.message⟩

theorem Execution.Presentable.steps {e e' : Execution} (h : e.Presentable)
    (hsteps : ExecutionSteps e e') : e'.Presentable := by
  induction hsteps with
  | refl => exact h
  | tail _ hstep ih => exact ih.step hstep

/-- A version of an execution that an event can report. -/
structure Execution.Reportable (e : Execution) : Prop where
  wellFormed : e.WellFormed
  nonneg : ∀ status, 0 ≤ e.count status
  presentable : e.Presentable
  version : 0 ≤ e.progressVersion

/-- Every execution of the store can be reported. -/
def AllReportable (s : Store) : Prop :=
  ∀ e ∈ s.executions, e.Reportable

/-- A change keeps the executions reportable. -/
theorem Change.reportable (h : Change env s s') (hconserved' : Conserved s')
    (hreportable : AllReportable s) : AllReportable s' := by
  intro e' he'
  suffices hsuffices : e'.Presentable ∧ 0 ≤ e'.progressVersion from
    ⟨hconserved'.executions e' he', fun status ↦ hconserved'.counted.nonneg he' status,
      hsuffices.1, hsuffices.2⟩
  cases h with
  | worked hevolves =>
    obtain ⟨e, he, hsteps⟩ := hevolves e' he'
    exact ⟨(hreportable e he).presentable.steps hsteps,
      (hreportable e he).version.trans hsteps.advances.version⟩
  | started now receivedAt envelope url hvalid hnew hs' =>
    subst hs'
    rcases List.mem_append.1 he' with he' | he'
    · exact ⟨(hreportable e' he').presentable, (hreportable e' he').version⟩
    · rw [List.mem_singleton.1 he']
      have hlimits := ScanCommandEnvelope.limits_of_validate hvalid
      exact ⟨⟨hlimits.2.2.2.1, .inl rfl, .inl rfl⟩, le_refl _⟩
  | cancelled now receivedAt envelope e hvalid he hscan hactive hexecutions =>
    rcases hexecutions e' he' with rfl | ⟨hold, -⟩
    · have hversion := (hreportable e he).version
      refine ⟨⟨(hreportable e he).presentable.maxPages, .inr (.inl rfl), .inr (.inl rfl)⟩, ?_⟩
      simp only [Execution.cancel]
      omega
    · exact ⟨(hreportable e' hold).presentable, (hreportable e' hold).version⟩

/-! ### What the outbox tells -/

theorem OutboxEvent.SameEvent.refl (event : OutboxEvent) : event.SameEvent event :=
  ⟨event.status, event.availableAt, event.deliveryAttempts, event.leaseOwner, event.leaseExpiresAt,
    rfl⟩

/-- An event that reports a version of an execution. -/
def Reports (event : OutboxEvent) (e : Execution) : Prop :=
  ∃ messageId correlationId now,
    (progressRow (e.progressEnvelope messageId correlationId now) now).SameEvent event

theorem Reports.congr {event event' : OutboxEvent} {e : Execution} (h : Reports event e)
    (hsame : event.SameEvent event') : Reports event' e := by
  obtain ⟨messageId, correlationId, now, _, _, _, _, _, rfl⟩ := h
  obtain ⟨_, _, _, _, _, rfl⟩ := hsame
  exact ⟨messageId, correlationId, now, _, _, _, _, _, rfl⟩

/-- What an event says of the execution it reports. -/
theorem Reports.spec {event : OutboxEvent} {e : Execution} (h : Reports event e) :
    event.aggregateType = "SCAN" ∧ event.aggregateId = e.scanId ∧
      event.aggregateVersion = e.progressVersion ∧ event.payload.payload = e.progressPayload ∧
      event.payload.messageId = event.messageId ∧ event.payload.aggregateId = e.scanId ∧
      event.payload.aggregateVersion = e.progressVersion := by
  obtain ⟨messageId, correlationId, now, _, _, _, _, _, rfl⟩ := h
  exact ⟨rfl, rfl, rfl, rfl, rfl, rfl, rfl⟩

/-- The columns of an event that never change. -/
theorem OutboxEvent.SameEvent.spec {event event' : OutboxEvent} (h : event.SameEvent event') :
    event'.aggregateType = event.aggregateType ∧ event'.aggregateId = event.aggregateId ∧
      event'.aggregateVersion = event.aggregateVersion ∧ event'.payload = event.payload ∧
      event'.messageId = event.messageId := by
  obtain ⟨_, _, _, _, _, rfl⟩ := h
  exact ⟨rfl, rfl, rfl, rfl, rfl⟩

/-- The scan and the version of an event. -/
def OutboxEvent.logicalKey (event : OutboxEvent) : Uuid × ℤ :=
  (event.aggregateId, event.aggregateVersion)

/-- Every event reports an earlier version of an execution, or the present one, and events have
distinct identifiers and distinct versions. -/
structure Faithful (s : Store) : Prop where
  fresh : ∀ event ∈ s.outboxEvents, event.messageId < s.nextUuid
  messageIds : (s.outboxEvents.map OutboxEvent.messageId).Nodup
  versions : (s.outboxEvents.map OutboxEvent.logicalKey).Nodup
  reports : ∀ event ∈ s.outboxEvents, ∃ past : Execution, Reports event past ∧ past.Reportable ∧
    ∃ e ∈ s.executions, Advances past e

/-- The event has the highest version of its scan. -/
structure Latest (events : List OutboxEvent) (scanId : Uuid) (event : OutboxEvent) : Prop where
  mem : event ∈ events
  scan : event.aggregateId = scanId
  version : ∀ other ∈ events, other.aggregateId = scanId →
    other.aggregateVersion ≤ event.aggregateVersion

/-- The latest event tells the public status of the execution, and a terminal execution is told at
its last version. An execution without events waits in the queue. -/
structure Told (events : List OutboxEvent) (e : Execution) : Prop where
  status : (∃ event, Latest events e.scanId event ∧ event.payload.payload.status = e.publicStatus) ∨
    e.publicStatus = .queued ∧ ∀ event ∈ events, event.aggregateId ≠ e.scanId
  terminal : e.status.isTerminal = true →
    ∃ event ∈ events, event.aggregateId = e.scanId ∧ event.aggregateVersion = e.progressVersion

/-- The events that mean the same, up to their delivery. -/
abbrev SameEvents : List OutboxEvent → List OutboxEvent → Prop :=
  List.Forall₂ OutboxEvent.SameEvent

theorem sameEvents_update {sel : OutboxEvent → Bool} {set : OutboxEvent → OutboxEvent}
    (events : List OutboxEvent) (h : ∀ event : OutboxEvent, event.SameEvent (set event)) :
    SameEvents events (Table.update sel set events) := by
  refine List.forall₂_map_right_iff.2 (List.forall₂_same.2 fun event _ ↦ ?_)
  split_ifs
  · exact h event
  · exact .refl event

/-- The members of related lists are related. -/
theorem exists_of_forall₂ {α β : Type} {R : α → β → Prop} {as : List α} {bs : List β}
    (h : List.Forall₂ R as bs) {b : β} (hb : b ∈ bs) : ∃ a ∈ as, R a b := by
  induction h with
  | nil => cases hb
  | cons hhead _ ih =>
    rcases List.mem_cons.1 hb with rfl | hb
    · exact ⟨_, List.mem_cons_self, hhead⟩
    · obtain ⟨a, ha, hR⟩ := ih hb
      exact ⟨a, List.mem_cons_of_mem _ ha, hR⟩

/-- A column that is the same in related rows. -/
theorem map_eq_of_forall₂ {α β : Type} {R : α → α → Prop} {column : α → β} {as bs : List α}
    (h : List.Forall₂ R as bs) (hR : ∀ a b, R a b → column b = column a) :
    bs.map column = as.map column := by
  induction h with
  | nil => rfl
  | cons hhead _ ih => rw [List.map_cons, List.map_cons, ih, hR _ _ hhead]

theorem Latest.congr {events events' : List OutboxEvent} {scanId : Uuid} {event : OutboxEvent}
    (h : Latest events scanId event) (hsame : SameEvents events events') :
    ∃ event', Latest events' scanId event' ∧ event.SameEvent event' := by
  obtain ⟨event', hevent', heq⟩ := exists_of_forall₂ hsame.flip h.mem
  obtain ⟨-, hscan, hversion, -⟩ := OutboxEvent.SameEvent.spec heq
  refine ⟨event', ⟨hevent', hscan.trans h.scan, fun other' hother' hid ↦ ?_⟩, heq⟩
  obtain ⟨other, hother, hsame'⟩ := exists_of_forall₂ hsame hother'
  obtain ⟨-, hscan', hversion', -⟩ := hsame'.spec
  rw [hversion, hversion']
  exact h.version other hother (hscan'.symm.trans hid)

/-- What the events tell does not depend on their delivery. -/
theorem Told.congr {events events' : List OutboxEvent} {e : Execution} (h : Told events e)
    (hsame : SameEvents events events') : Told events' e where
  status := by
    rcases h.status with ⟨event, hlatest, hstatus⟩ | ⟨hstatus, hnone⟩
    · obtain ⟨event', hlatest', heq⟩ := hlatest.congr hsame
      exact .inl ⟨event', hlatest', by rw [heq.spec.2.2.2.1, hstatus]⟩
    · refine .inr ⟨hstatus, fun event' hevent' ↦ ?_⟩
      obtain ⟨event, hevent, heq⟩ := exists_of_forall₂ hsame hevent'
      rw [heq.spec.2.1]
      exact hnone event hevent
  terminal hterminal := by
    obtain ⟨event, hevent, hscan, hversion⟩ := h.terminal hterminal
    obtain ⟨event', hevent', heq⟩ := exists_of_forall₂ hsame.flip hevent
    obtain ⟨-, hscan', hversion', -⟩ := OutboxEvent.SameEvent.spec heq
    exact ⟨event', hevent', hscan'.trans hscan, hversion'.trans hversion⟩

/-- Rows with the same events, whose executions have advanced, are still faithful. -/
theorem Faithful.congr (h : Faithful s) (hsame : SameEvents s.outboxEvents s'.outboxEvents)
    (hle : s.nextUuid ≤ s'.nextUuid)
    (hadvances : ∀ e ∈ s.executions, ∃ e' ∈ s'.executions, Advances e e') : Faithful s' where
  fresh event' hevent' := by
    obtain ⟨event, hevent, heq⟩ := exists_of_forall₂ hsame hevent'
    rw [heq.spec.2.2.2.2]
    exact (h.fresh event hevent).trans_le hle
  messageIds := by
    rw [map_eq_of_forall₂ hsame fun _ _ heq ↦ heq.spec.2.2.2.2]
    exact h.messageIds
  versions := by
    rw [map_eq_of_forall₂ hsame fun _ _ heq ↦ Prod.ext heq.spec.2.1 heq.spec.2.2.1]
    exact h.versions
  reports event' hevent' := by
    obtain ⟨event, hevent, heq⟩ := exists_of_forall₂ hsame hevent'
    obtain ⟨past, hreports, hpast, e, he, hadvanced⟩ := h.reports event hevent
    obtain ⟨e', he', hadvances'⟩ := hadvances e he
    exact ⟨past, hreports.congr heq, hpast, e', he', hadvanced.trans hadvances'⟩

/-! ### Announcing an execution -/

/-- The latest event is the one that the sampling looks at. -/
theorem latest_of_latestEvent (h : Faithful s) {scanId : Uuid} {event : OutboxEvent}
    (hlatest : latestEvent scanId s.outboxEvents = some event) :
    Latest s.outboxEvents scanId event := by
  obtain ⟨hmem, hscan⟩ := List.mem_filter.1 (Table.firstBy_mem hlatest)
  rw [Bool.and_eq_true, decide_eq_true_eq, decide_eq_true_eq] at hscan
  refine ⟨hmem, hscan.2, fun other hother hid ↦ ?_⟩
  obtain ⟨past, hreports, -⟩ := h.reports other hother
  have hbefore := Table.not_before_firstBy hlatest other
    (List.mem_filter.2 ⟨hother, by simp [hreports.spec.1, hid]⟩)
  simp only [Table.before, Bool.or_eq_false_iff, decide_eq_false_iff_not] at hbefore
  omega

/-- A version of a scan that was reported before is told by the latest event. -/
theorem told_of_reported (h : Faithful s) (hscans : (s.executions.map Execution.scanId).Nodup)
    {e : Execution} (he : e ∈ s.executions) {event : OutboxEvent} (hevent : event ∈ s.outboxEvents)
    (hscan : event.aggregateId = e.scanId) (hversion : event.aggregateVersion = e.progressVersion) :
    Told s.outboxEvents e := by
  have hbound : ∀ other ∈ s.outboxEvents, other.aggregateId = e.scanId → ∃ past,
      Reports other past ∧ Advances past e := by
    intro other hother hid
    obtain ⟨past, hreports, -, e', he', hadvances⟩ := h.reports other hother
    have hscan' : e'.scanId = e.scanId := by
      rw [(Execution.of_fixed_eq hadvances.fixed).2.1, ← hreports.spec.2.1, hid]
    obtain rfl := Table.eq_of_key_eq hscans he' he hscan'
    exact ⟨past, hreports, hadvances⟩
  obtain ⟨past, hreports, hadvances⟩ := hbound event hevent hscan
  have hpast := hadvances.eq_of_version (hversion.symm.trans hreports.spec.2.2.1)
  refine ⟨.inl ⟨event, ⟨hevent, hscan, fun other hother hid ↦ ?_⟩, ?_⟩,
    fun _ ↦ ⟨event, hevent, hscan, hversion⟩⟩
  · obtain ⟨past', hreports', hadvances'⟩ := hbound other hother hid
    rw [hreports'.spec.2.2.1, hversion]
    exact hadvances'.version
  · rw [hreports.spec.2.2.2.1, hpast]
    rfl

/-- Announcing an execution leaves the outbox alone only if the latest event tells its status, and
adds an event for every new version otherwise. -/
theorem progressRows_cases (e : Execution) (messageId correlationId : Uuid) (now : Instant)
    (events : List OutboxEvent) :
    (∀ event ∈ events, ¬ (event.aggregateType = "SCAN" ∧ event.aggregateId = e.scanId ∧
        event.aggregateVersion = e.progressVersion ∧ event.eventType = scanProgressV1)) ∧
      progressRows e (e.progressEnvelope messageId correlationId now) now events =
        [progressRow (e.progressEnvelope messageId correlationId now) now] ∨
    progressRows e (e.progressEnvelope messageId correlationId now) now events = [] ∧
      ((∃ event ∈ events, event.aggregateId = e.scanId ∧
        event.aggregateVersion = e.progressVersion) ∨
      e.status.isTerminal = false ∧ isRepetition e.scanId e.publicStatus now events = true) := by
  unfold progressRows
  split_ifs with h
  · exact .inl ⟨h.2, rfl⟩
  · refine .inr ⟨rfl, ?_⟩
    by_cases hconflict : ∃ event ∈ events, event.aggregateId = e.scanId ∧
        event.aggregateVersion = e.progressVersion
    · exact .inl hconflict
    · refine .inr ?_
      rw [not_and_or] at h
      rcases h with h | h
      · simpa [not_or] using h
      · refine absurd (fun event hevent hsame ↦ hconflict ⟨event, hevent, hsame.2.1, hsame.2.2.1⟩) h

/-- Announcing an execution keeps the outbox faithful. -/
theorem Faithful.announce (h : Faithful s) {e : Execution} (he : e ∈ s.executions)
    (hreportable : e.Reportable) (correlationId : Uuid) (now : Instant) :
    Faithful (s.withProgressEvent e correlationId now) := by
  rcases progressRows_cases e s.nextUuid correlationId now s.outboxEvents with
    ⟨hnew, hrows⟩ | ⟨hrows, -⟩
  · have houtbox : (s.withProgressEvent e correlationId now).outboxEvents = s.outboxEvents ++
        [progressRow (e.progressEnvelope s.nextUuid correlationId now) now] := by
      rw [← hrows]
      rfl
    refine ⟨?_, ?_, ?_, ?_⟩ <;> rw [houtbox]
    · intro event hevent
      rcases List.mem_append.1 hevent with hevent | hevent
      · exact (h.fresh event hevent).trans (Nat.lt_succ_self _)
      · rw [List.mem_singleton.1 hevent]
        exact Nat.lt_succ_self _
    · rw [List.map_append, List.nodup_append]
      refine ⟨h.messageIds, List.nodup_singleton _, fun id hid other hother heq ↦ ?_⟩
      obtain ⟨event, hevent, rfl⟩ := List.mem_map.1 hid
      have hlt := h.fresh event hevent
      rw [heq, List.mem_singleton.1 hother] at hlt
      exact lt_irrefl _ hlt
    · rw [List.map_append, List.nodup_append]
      refine ⟨h.versions, List.nodup_singleton _, fun key hkey other hother heq ↦ ?_⟩
      obtain ⟨event, hevent, rfl⟩ := List.mem_map.1 hkey
      obtain ⟨past, ⟨messageId, correlationId', now', _, _, _, _, _, rfl⟩, -⟩ := h.reports event hevent
      rw [List.mem_singleton.1 hother] at heq
      exact hnew _ hevent ⟨rfl, congrArg Prod.fst heq, congrArg Prod.snd heq, rfl⟩
    · intro event hevent
      rcases List.mem_append.1 hevent with hevent | hevent
      · exact h.reports event hevent
      · rw [List.mem_singleton.1 hevent]
        exact ⟨e, ⟨_, _, _, .refl _⟩, hreportable, e, he, .refl e⟩
  · have houtbox : (s.withProgressEvent e correlationId now).outboxEvents = s.outboxEvents := by
      rw [Store.withProgressEvent, hrows, List.append_nil]
    refine ⟨fun event hevent ↦ ?_, ?_, ?_, ?_⟩
    · rw [houtbox] at hevent
      exact (h.fresh event hevent).trans (Nat.lt_succ_self _)
    all_goals rw [houtbox]
    · exact h.messageIds
    · exact h.versions
    · exact h.reports

/-- An announced execution is told. -/
theorem told_announce (h : Faithful s) (hscans : (s.executions.map Execution.scanId).Nodup)
    {e : Execution} (he : e ∈ s.executions) (hreportable : e.Reportable) (correlationId : Uuid)
    (now : Instant) :
    Told (s.withProgressEvent e correlationId now).outboxEvents e := by
  have hfaithful := h.announce he hreportable correlationId now
  rcases progressRows_cases e s.nextUuid correlationId now s.outboxEvents with
    ⟨-, hrows⟩ | ⟨hrows, hreported | ⟨hactive, hrepetition⟩⟩
  · refine told_of_reported hfaithful hscans he
      (List.mem_append_right _ (hrows ▸ List.mem_singleton_self _)) rfl rfl
  · obtain ⟨event, hevent, hscan, hversion⟩ := hreported
    exact told_of_reported hfaithful hscans he (List.mem_append_left _ hevent) hscan hversion
  · have houtbox : (s.withProgressEvent e correlationId now).outboxEvents = s.outboxEvents := by
      rw [Store.withProgressEvent, hrows, List.append_nil]
    rw [houtbox]
    refine ⟨.inl ?_, fun hterminal ↦ ?_⟩
    · unfold isRepetition at hrepetition
      split at hrepetition
      · next latest hlatest =>
        rw [Bool.and_eq_true, decide_eq_true_eq] at hrepetition
        exact ⟨latest, latest_of_latestEvent h hlatest, of_decide_eq_true hrepetition.2⟩
      · cases hrepetition
    · rw [hactive] at hterminal
      cases hterminal

/-- Announcing an execution does not change what the outbox tells of another. -/
theorem Told.announce {e other : Execution} (h : Told s.outboxEvents other)
    (hne : e.scanId ≠ other.scanId) (correlationId : Uuid) (now : Instant) :
    Told (s.withProgressEvent e correlationId now).outboxEvents other := by
  have hadded : ∀ event ∈ (s.withProgressEvent e correlationId now).outboxEvents,
      event.aggregateId = other.scanId → event ∈ s.outboxEvents := by
    intro event hevent hscan
    rcases List.mem_append.1 hevent with hevent | hevent
    · exact hevent
    · rcases progressRows_cases e s.nextUuid correlationId now s.outboxEvents with
        ⟨-, hrows⟩ | ⟨hrows, -⟩
      · rw [hrows, List.mem_singleton] at hevent
        rw [hevent] at hscan
        exact absurd hscan hne
      · rw [hrows] at hevent
        cases hevent
  constructor
  · rcases h.status with ⟨event, hlatest, hstatus⟩ | ⟨hstatus, hnone⟩
    · exact .inl ⟨event, ⟨List.mem_append_left _ hlatest.mem, hlatest.scan, fun event' hevent' hid ↦
        hlatest.version event' (hadded event' hevent' hid) hid⟩, hstatus⟩
    · exact .inr ⟨hstatus, fun event hevent hscan ↦ hnone event (hadded event hevent hscan) hscan⟩
  · intro hterminal
    obtain ⟨event, hevent, hrest⟩ := h.terminal hterminal
    exact ⟨event, List.mem_append_left _ hevent, hrest⟩

/-- The store after the executions of a list were announced. -/
inductive Announces (now : Instant) : List Execution → Store → Store → Prop
  | nil (s : Store) : Announces now [] s s
  | cons {e : Execution} {es : List Execution} {s s' : Store} (correlationId : Uuid)
      (he : e ∈ s.executions) (hrest : Announces now es (s.withProgressEvent e correlationId now) s') :
      Announces now (e :: es) s s'

theorem Announces.executions {now : Instant} {es : List Execution} (h : Announces now es s s') :
    s'.executions = s.executions := by
  induction h with
  | nil s => rfl
  | cons _ _ _ ih => exact ih

/-- Announcing executions keeps the outbox faithful and what it tells, and tells them. -/
theorem Announces.told {now : Instant} {es : List Execution} (h : Announces now es s s')
    (hfaithful : Faithful s) (hscans : (s.executions.map Execution.scanId).Nodup)
    (hreportable : AllReportable s) : Faithful s' ∧ (∀ e ∈ es, Told s'.outboxEvents e) ∧
      ∀ e ∈ s.executions, Told s.outboxEvents e → Told s'.outboxEvents e := by
  induction h with
  | nil s => exact ⟨hfaithful, by simp, fun _ _ h ↦ h⟩
  | @cons e es s s' correlationId he hrest ih =>
    have htold := told_announce hfaithful hscans he (hreportable e he) correlationId now
    obtain ⟨hfaithful', hes, hkept⟩ :=
      ih (hfaithful.announce he (hreportable e he) correlationId now) hscans hreportable
    refine ⟨hfaithful', fun other hother ↦ ?_, fun other hother h ↦ ?_⟩
    · rcases List.mem_cons.1 hother with rfl | hother
      · exact hkept other he htold
      · exact hes other hother
    · by_cases heq : e.scanId = other.scanId
      · obtain rfl := Table.eq_of_key_eq hscans he hother heq
        exact hkept e he htold
      · exact hkept other hother (h.announce heq correlationId now)

/-- An event after announcements was there before, or reports an execution as it is. -/
theorem Announces.mem {now : Instant} {es : List Execution} (h : Announces now es s s')
    {event : OutboxEvent} (hevent : event ∈ s'.outboxEvents) :
    event ∈ s.outboxEvents ∨ ∃ e ∈ s.executions, Reports event e := by
  induction h with
  | nil s => exact .inl hevent
  | @cons e es s s' correlationId he hrest ih =>
    rcases ih hevent with hevent | hreports
    · rcases List.mem_append.1 hevent with hevent | hevent
      · exact .inl hevent
      · rcases progressRows_cases e s.nextUuid correlationId now s.outboxEvents with
          ⟨-, hrows⟩ | ⟨hrows, -⟩ <;> rw [hrows] at hevent
        · rw [List.mem_singleton.1 hevent]
          exact .inr ⟨e, he, _, _, _, .refl _⟩
        · cases hevent
    · exact .inr hreports

/-- Announcements keep the events. -/
theorem Announces.subset {now : Instant} {es : List Execution} (h : Announces now es s s') :
    s.outboxEvents ⊆ s'.outboxEvents := by
  induction h with
  | nil s => exact List.Subset.refl _
  | cons _ _ _ ih => exact fun event hevent ↦ ih (List.mem_append_left _ hevent)

/-! ### What a transition announces -/

/-- Events after at most one statement of the delivery. -/
def Moves (events events' : List OutboxEvent) : Prop :=
  ∃ sel set, (∀ event : OutboxEvent, event.SameEvent (set event)) ∧ EventMove events sel set ∧
    events' = Table.update sel set events

theorem Moves.refl (events : List OutboxEvent) : Moves events events :=
  ⟨fun _ ↦ false, fun event ↦ { event with status := .delivered }, fun _ ↦ ⟨_, _, _, _, _, rfl⟩,
    .delivered (by simp) fun _ ↦ rfl, (Table.update_eq_self fun _ _ ↦ rfl).symm⟩

theorem Moves.sameEvents {events events' : List OutboxEvent} (h : Moves events events') :
    SameEvents events events' := by
  obtain ⟨sel, set, hset, -, rfl⟩ := h
  exact sameEvents_update events hset

/-- The executions that changed between two stores were announced in the second, save those that
just started. -/
def Announced (s s' : Store) : Prop :=
  ∃ now es s₁, Announces now es s₁ s' ∧ Moves s.outboxEvents s₁.outboxEvents ∧
    s.nextUuid ≤ s₁.nextUuid ∧ ∀ e' ∈ s'.executions, e' ∈ es ∨ e' ∈ s.executions ∨
      e'.status = .queued ∧ ∀ e ∈ s.executions, e.scanId ≠ e'.scanId

/-- Nothing is announced when no execution changed. -/
theorem announced_of_eq (hevents : Moves s.outboxEvents s'.outboxEvents)
    (hle : s.nextUuid ≤ s'.nextUuid) (hexecutions : s'.executions = s.executions) :
    Announced s s' :=
  ⟨0, [], s', .nil s', hevents, hle, fun _ he' ↦ .inr (.inl (hexecutions ▸ he'))⟩

/-- An update of one execution announces it. -/
theorem announced_update {s₁ : Store} {id : Uuid} (set : Execution → Execution) {e : Execution}
    {correlationId : Uuid} {now : Instant} (hids : (s₁.executions.map Execution.id).Nodup)
    (hexecutions : s₁.executions = Table.update (fun e ↦ decide (e.id = id)) set s.executions)
    (hset : ∀ e, (set e).id = e.id)
    (he : s₁.executions.find? (fun e ↦ decide (e.id = id)) = some e)
    (hevents : s₁.outboxEvents = s.outboxEvents) (hle : s.nextUuid ≤ s₁.nextUuid) :
    Announced s (s₁.withProgressEvent e correlationId now) := by
  have hmem := List.mem_of_find?_eq_some he
  have hid : e.id = id := by simpa using List.find?_some he
  refine ⟨now, [e], s₁, .cons correlationId hmem (.nil _), ?_, hle, fun e' he₁ ↦ ?_⟩
  · rw [hevents]
    exact .refl _
  · change e' ∈ s₁.executions at he₁
    have hupdate := he₁
    rw [hexecutions, mem_updateExecution] at hupdate
    obtain ⟨e₀, he₀, ⟨hid₀, rfl⟩ | ⟨-, rfl⟩⟩ := hupdate
    · have hsame := Table.eq_of_key_eq hids he₁ hmem ((hset e₀).trans (hid₀.trans hid.symm))
      exact .inl (hsame ▸ List.mem_singleton_self e)
    · exact .inr (.inl he₀)

/-- The executions that reclaiming changes are affected. -/
theorem mem_executions_reclaimed {clock : ReclaimClock} {locks : ReclaimLocks} {e' : Execution}
    (he' : e' ∈ (s.reclaimed clock locks).executions) :
    e' ∈ s.executions ∨ e'.id ∈ s.affected clock locks := by
  have hpages : ∀ {pages : List Page} {executions : List Execution} {e e' : Execution},
      e'.id = e.id → e ∈ executions → (!(pagesOf pages e).isEmpty) = true →
        e'.id ∈ idsOf pages executions :=
    fun hid he hsel ↦ hid ▸ List.mem_map_of_mem (List.mem_filter.2 ⟨he, hsel⟩)
  simp only [Store.affected, List.mem_dedup, List.mem_append]
  obtain ⟨e₃, he₃, heq₃⟩ := Table.mem_update.1 he'
  by_cases hstuck : e₃.isStuck = true
  · rw [if_pos hstuck] at heq₃
    have hid : e'.id = e₃.id := by
      rw [← heq₃]
      rfl
    exact .inr (.inr (hid ▸ List.mem_map_of_mem (List.mem_filter.2 ⟨he₃, hstuck⟩)))
  rw [if_neg hstuck] at heq₃
  subst heq₃
  obtain ⟨e₂, he₂, heq₂⟩ := Table.mem_update.1 he₃
  split_ifs at heq₂ with hoverdue
  · have hid : e₃.id = e₂.id := by
      rw [← heq₂]
      rfl
    exact .inr (.inl (.inr (hpages hid he₂ hoverdue)))
  subst heq₂
  obtain ⟨e₁, he₁, heq₁⟩ := Table.mem_update.1 he₂
  split_ifs at heq₁ with hexpired
  · have hid : e₂.id = e₁.id := by
      rw [← heq₁]
      rfl
    exact .inr (.inl (.inl (hpages hid he₁ hexpired)))
  · rw [← heq₁]
    exact .inl he₁

/-- The progress events of a list of identifiers announce the executions. -/
theorem announces_of_progressEvents {now : Instant} {ids : List Uuid}
    (h : ProgressEvents now ids s s') : ∃ es, Announces now es s s' ∧ ∀ id ∈ ids, ∀ e,
      s.executions.find? (fun e ↦ decide (e.id = id)) = some e → e ∈ es := by
  induction h with
  | nil s => exact ⟨[], .nil s, by simp⟩
  | @cons id ids s s' e correlationId he hcorrelation hrest ih =>
    obtain ⟨es, hes, hall⟩ := ih
    refine ⟨e :: es, .cons correlationId (List.mem_of_find?_eq_some he) hes, fun other hid e' he' ↦ ?_⟩
    rcases List.mem_cons.1 hid with rfl | hid
    · rw [he, Option.some.injEq] at he'
      rw [he']
      exact List.mem_cons_self
    · exact List.mem_cons_of_mem _ (hall other hid e' he')

/-- The row of a key is found by it. -/
theorem find?_of_mem {executions : List Execution} (hids : (executions.map Execution.id).Nodup)
    {e : Execution} (he : e ∈ executions) :
    executions.find? (fun e' ↦ decide (e'.id = e.id)) = some e := by
  cases hfind : executions.find? fun e' ↦ decide (e'.id = e.id) with
  | none => simpa using List.find?_eq_none.1 hfind e he
  | some e' =>
    have hid : e'.id = e.id := by simpa using List.find?_some hfind
    rw [Table.eq_of_key_eq hids (List.mem_of_find?_eq_some hfind) he hid]

/-- Every transition announces the executions it changes. -/
theorem Transition.announced {sys sys' : System} (h : Transition env sys sys')
    (hsys : sys.Keyed) : Announced sys.store sys'.store := by
  have hids := (h.keyed hsys).1.executionIds
  have hrefl := Moves.refl sys.store.outboxEvents
  obtain ⟨_, h⟩ := h
  cases h with
  | unchanged => exact announced_of_eq hrefl (le_refl _) rfl
  | idle => exact announced_of_eq hrefl (Nat.le_succ _) rfl
  | stale | extended | analyticsClaimed | analyticsRetried =>
    exact announced_of_eq hrefl (le_refl _) rfl
  | eventsMoved sel set messages hset hmove =>
    exact announced_of_eq ⟨sel, set, hset, hmove, rfl⟩ (le_refl _) rfl
  | started now receivedAt envelope url hvalid hnew =>
    refine ⟨now, [], _, .nil _, hrefl, Nat.le_add_right _ _, fun e' he' ↦ .inr ?_⟩
    rcases List.mem_append.1 he' with he' | he'
    · exact .inl he'
    · rw [List.mem_singleton.1 he']
      exact .inr ⟨rfl, hnew⟩
  | cancelled now receivedAt envelope e e' _ _ _ _ _ _ he' =>
    have hstore : Announced sys.store (Store.withProgressEvent ((sys.store.cancelled
        envelope.aggregateVersion now e).withInbox (envelope.inboxRow env .applied receivedAt)) e'
        envelope.correlationId now) :=
      announced_update _ hids rfl (fun _ ↦ rfl) he' rfl (le_refl _)
    exact hstore
  | claimed now leaseUntil hostDelay locks e host page correlationId e' _ _ _ he' =>
    exact announced_update _ hids rfl (fun _ ↦ rfl) he' rfl (Nat.le_succ _)
  | requeued now lease result page e _ _ _ _ _ he =>
    exact announced_update _ hids rfl (fun _ ↦ rfl) he rfl (le_refl _)
  | staged now lease result page added payload outboxId e _ _ _ _ _ _ hadded _ he =>
    exact announced_update _ hids rfl (fun _ ↦ rfl) he rfl (hadded.le.trans (Nat.le_succ _))
  | published now batch page terminalStatus e correlationId _ _ _ _ _ _ he =>
    refine announced_update _ hids (published_executions now batch terminalStatus sys.store)
      (fun e ↦ ?_) he rfl (le_refl _)
    exact (Execution.of_fixed_eq ((e.publish terminalStatus now).fixed_finish now)).1
  | reclaimed clock locks s' _ _ hevents =>
    obtain ⟨es, hes, hall⟩ := announces_of_progressEvents hevents
    refine ⟨clock.now, es, _, hes, ⟨_, _, fun event ↦ ⟨_, _, _, _, _, rfl⟩,
      .returned (fun event hsel ↦ of_decide_eq_true (Bool.and_eq_true_iff.1 hsel).1)
        fun _ ↦ .inl rfl, rfl⟩, le_refl _, fun e' he' ↦ ?_⟩
    have hids' : ((sys.store.reclaimed clock locks).executions.map Execution.id).Nodup := by
      rw [← hes.executions]
      exact hids
    rw [hes.executions] at he'
    rcases mem_executions_reclaimed he' with hold | hid
    · exact .inr (.inl hold)
    · exact .inl (hall _ hid e' (find?_of_mem hids' he'))

/-! ### Every run -/

/-- A crawler that keeps its counters, whose executions can be reported, and whose outbox reports
them faithfully and tells their status. -/
structure System.Telling (sys : System) : Prop where
  conserved : sys.Conserved
  reportable : AllReportable sys.store
  faithful : Faithful sys.store
  told : ∀ e ∈ sys.store.executions, Told sys.store.outboxEvents e

/-- What a step does to the executions and to the events: executions advance, and an event after the
step was there before or reports an execution as it is now. -/
structure Progressed (s s' : Store) : Prop where
  executions : ∀ e ∈ s.executions, ∃ e' ∈ s'.executions, Advances e e'
  kept : ∀ event ∈ s.outboxEvents, ∃ event' ∈ s'.outboxEvents, event.SameEvent event'
  events : ∀ event' ∈ s'.outboxEvents, (∃ event ∈ s.outboxEvents, event.SameEvent event') ∨
    ∃ e' ∈ s'.executions, Reports event' e'

/-- A queued execution is queued in public. -/
theorem Execution.publicStatus_of_queued {e : Execution} (h : e.status = .queued) :
    e.publicStatus = .queued := by
  rw [Execution.publicStatus, h]
  rfl

theorem Transition.telling {sys sys' : System} (h : Transition env sys sys')
    (hsys : sys.Telling) : sys'.Telling ∧ Progressed sys.store sys'.store := by
  obtain ⟨hconserved, hreportable, hfaithful, htold⟩ := hsys
  obtain ⟨hconserved', hlive', hchange⟩ := h.conserved hconserved
  have hkeyed' := h.system_keyed hconserved.keyed
  have hpersists := (h.keyed hconserved.keyed).2
  have hreportable' := hchange.reportable hconserved' hreportable
  have hadvances : ∀ e ∈ sys.store.executions, ∃ e' ∈ sys'.store.executions, Advances e e' :=
    fun e he ↦ hchange.advances hconserved.keyed.store hpersists hconserved.conserved he
  obtain ⟨now, es, s₁, hannounces, hmoves, hle, hall⟩ := h.announced hconserved.keyed
  have hsame := hmoves.sameEvents
  have hexecutions := hannounces.executions
  have hfaithful₁ : Faithful s₁ := hfaithful.congr hsame hle (hexecutions ▸ hadvances)
  obtain ⟨hfaithful', hes, hkept⟩ := hannounces.told hfaithful₁
    (hexecutions ▸ hkeyed'.store.scanIds) (fun e he ↦ hreportable' e (hexecutions ▸ he))
  refine ⟨⟨⟨hkeyed', hconserved', hlive'⟩, hreportable', hfaithful', fun e' he' ↦ ?_⟩,
    hadvances, fun event hevent ↦ ?_, fun event' hevent' ↦ ?_⟩
  · rcases hall e' he' with hannounced | hold | ⟨hstatus, hnew⟩
    · exact hes e' hannounced
    · exact hkept e' (hexecutions ▸ he') ((htold e' hold).congr hsame)
    · refine hkept e' (hexecutions ▸ he') ⟨.inr ⟨Execution.publicStatus_of_queued hstatus,
        fun event hevent hscan ↦ ?_⟩, fun hterminal ↦ ?_⟩
      · obtain ⟨event₀, hevent₀, heq⟩ := exists_of_forall₂ hsame hevent
        obtain ⟨past, hreports, -, e, he, hpast⟩ := hfaithful.reports event₀ hevent₀
        refine hnew e he ?_
        rw [(Execution.of_fixed_eq hpast.fixed).2.1, ← hreports.spec.2.1, ← heq.spec.2.1, hscan]
      · rw [hstatus] at hterminal
        cases hterminal
  · obtain ⟨event', hevent', heq⟩ := exists_of_forall₂ hsame.flip hevent
    exact ⟨event', hannounces.subset hevent', heq⟩
  · rcases hannounces.mem hevent' with hold | ⟨e, he, hreports⟩
    · exact .inl (exists_of_forall₂ hsame hold)
    · exact .inr ⟨e, hexecutions ▸ he, hreports⟩

theorem telling_after (env : Env) (actions : List Action) : (System.after env actions).Telling := by
  have hinit : System.Telling {} :=
    ⟨conserved_after env [], by simp [AllReportable], ⟨by simp, by simp, by simp, by simp⟩, by simp⟩
  exact after_invariant hinit (fun h hsys ↦ (h.telling hsys).1) actions

end WebLens.Crawler
