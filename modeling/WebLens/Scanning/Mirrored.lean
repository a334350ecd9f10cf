import WebLens.Scanning.Carried

/-!
# Scans and their executions

A scan of the Control Plane shows its execution as one of the events reported it. It is never ahead
of the execution, it ends only after the execution has ended, and once every event of an execution
that has ended is delivered the scan shows the end: in the meantime events may come late, twice or
in any order.
-/

set_option autoImplicit false
set_option relaxedAutoImplicit false

namespace WebLens.Scanning

open Lib Lib.Table Lib.Transaction ControlPlane
open Capture (Uuid)
open Crawler (Instant)

variable {env : Env} {s s' : State}

/-! ### What a scan shows -/

/-- No event has reached the scan. -/
structure Untouched (scan : Scan) : Prop where
  remote : scan.remoteExecutionVersion = 0
  active : scan.status.isTerminal = false

/-- The counters of the scan are those of the payload. -/
structure Counts (scan : Scan) (payload : Crawler.ScanProgressPayload) : Prop where
  discovered : scan.discoveredCount = payload.discoveredCount
  queued : scan.queuedCount = payload.queuedCount
  processed : scan.processedCount = payload.processedCount
  succeeded : scan.succeededCount = payload.succeededCount
  failed : scan.failedCount = payload.failedCount
  analyticsExpected : scan.analyticsExpectedCount = payload.analyticsExpectedCount
  analyticsPublished : scan.analyticsPublishedCount = payload.analyticsPublishedCount

/-- The scan ended as the payload says. -/
structure Outcome (scan : Scan) (payload : Crawler.ScanProgressPayload) : Prop where
  status : ScanStatus.valueOf (executionStatusText payload.status) = some scan.status
  terminalCode : scan.terminalCode = emptyToNull (some payload.terminalCode)
  terminalMessage : scan.terminalMessage = emptyToNull (some payload.terminalMessage)

/-- The scan shows what the payload says, up to a cancellation by its user. -/
structure Shows (scan : Scan) (payload : Crawler.ScanProgressPayload) : Prop where
  ends : scan.status.isTerminal = payload.status.isTerminal
  counts : payload.status ≠ .queued → Counts scan payload
  outcome : payload.status.isTerminal = true → Outcome scan payload

/-- The scan shows one of the events. -/
def Mirrors (events : List Crawler.OutboxEvent) (scan : Scan) : Prop :=
  Untouched scan ∨ ∃ event ∈ events, event.aggregateId = scan.id ∧
    event.aggregateVersion = scan.remoteExecutionVersion ∧ Shows scan event.payload.payload

/-- The Control Plane has a status for an execution, and it says the same. -/
theorem valueOf_text {status : Crawler.ExecutionStatus} {shown : ScanStatus}
    (h : ScanStatus.valueOf (executionStatusText status) = some shown) :
    shown.isTerminal = status.isTerminal ∧ (shown = .queued ↔ status = .queued) := by
  cases status with
  | indexing => cases h
  | _ =>
    obtain rfl := Option.some.inj h
    exact ⟨rfl, by decide⟩

theorem Untouched.newScan (id websiteId userId : Uuid) (limits : ScanConfiguration)
    (version : String) (keyHash fingerprint : Option String) :
    Untouched (newScan id websiteId userId limits version keyHash fingerprint) :=
  ⟨rfl, rfl⟩

/-- A user who asks to cancel a scan does not touch what it shows. -/
theorem Mirrors.cancelling {events : List Crawler.OutboxEvent} {scan : Scan}
    (h : Mirrors events scan) (hstatus : scan.status = .queued ∨ scan.status = .running) :
    Mirrors events { scan with status := .cancelRequested, version := scan.version + 1 } := by
  have hactive : scan.status.isTerminal = false := by
    rcases hstatus with hstatus | hstatus <;> rw [hstatus] <;> rfl
  rcases h with huntouched | ⟨event, hevent, hid, hversion, hshows⟩
  · exact .inl ⟨huntouched.remote, rfl⟩
  · have hends := hactive.symm.trans hshows.ends
    refine .inr ⟨event, hevent, hid, hversion, hends, fun hstarted ↦ ?_, fun hterminal ↦ ?_⟩
    · have hcounts := hshows.counts hstarted
      exact ⟨hcounts.discovered, hcounts.queued, hcounts.processed, hcounts.succeeded,
        hcounts.failed, hcounts.analyticsExpected, hcounts.analyticsPublished⟩
    · exact absurd (hends.trans hterminal) Bool.false_ne_true

/-- A scan to which an event was applied shows it. -/
theorem shows_of_applied {scan next : Scan} {envelope : Crawler.ScanEventEnvelope}
    {projection : RemoteScanProjection} (hprojects : Projects scan envelope projection)
    (hnext : scan.applyRemoteProjection projection = .ok (some next)) :
    next.remoteExecutionVersion = envelope.aggregateVersion ∧
      Shows { next with version := next.version + 1 } envelope.payload := by
  obtain ⟨hends, hqueued⟩ := valueOf_text hprojects.status
  obtain ⟨-, hactive, ⟨hstatus, rfl⟩ | ⟨hstatus, -, hfollows, hnext⟩⟩ :=
    Scan.applyRemoteProjection_some hnext
  · have hwaiting := hqueued.1 hstatus
    refine ⟨hprojects.version, ?_, fun hstarted ↦ absurd hwaiting hstarted, fun hterminal ↦ ?_⟩
    · rw [hwaiting]
      exact hactive
    · rw [hwaiting] at hterminal
      cases hterminal
  · have hsame : next.status.isTerminal = envelope.payload.status.isTerminal := by
      rcases hfollows with hsame | ⟨hrunning, hcancelling⟩
      · rw [← hsame, hends]
      · rw [← hends, hrunning, hcancelling]
        rfl
    refine ⟨?_, hsame, fun _ ↦ ?_, fun hterminal ↦ ?_⟩
    · rw [hnext]
      exact hprojects.version
    · rw [hnext]
      exact ⟨hprojects.discovered, hprojects.queued, hprojects.processed, hprojects.succeeded,
        hprojects.failed, hprojects.analyticsExpected, hprojects.analyticsPublished⟩
    · have hended : projection.status = next.status := by
        rcases hfollows with hsame | ⟨hrunning, -⟩
        · exact hsame
        · rw [← hends, hrunning] at hterminal
          cases hterminal
      have hprojected : projection.status.isTerminal = true := hends.trans hterminal
      refine ⟨hended ▸ hprojects.status, ?_, ?_⟩
      · rw [hnext]
        exact (if_pos hprojected).trans hprojects.terminalCode
      · rw [hnext]
        exact (if_pos hprojected).trans hprojects.terminalMessage

/-! ### Every step -/

/-- The columns of an event repeat what its envelope says. -/
theorem envelope_of_event (hs : Healthy env s) {event : Crawler.OutboxEvent}
    (hevent : event ∈ s.events) :
    event.payload.messageId = event.messageId ∧
      event.payload.aggregateVersion = event.aggregateVersion ∧
      event.payload.payload.scanId = event.aggregateId := by
  obtain ⟨past, hreports, -⟩ := hs.telling.faithful.reports event hevent
  obtain ⟨-, hscan, hversion, hpayload, hid, -, hversion'⟩ := hreports.spec
  refine ⟨hid, hversion'.trans hversion.symm, ?_⟩
  rw [hpayload, hscan]
  rfl

theorem Mirrors.mono {events events' : List Crawler.OutboxEvent} {scan : Scan}
    (h : Mirrors events scan)
    (hkept : ∀ event ∈ events, ∃ event' ∈ events', event.SameEvent event') :
    Mirrors events' scan := by
  rcases h with huntouched | ⟨event, hevent, hid, hversion, hshows⟩
  · exact .inl huntouched
  · obtain ⟨event', hevent', hsame⟩ := hkept event hevent
    obtain ⟨-, hid', hversion', hpayload, -⟩ := hsame.spec
    refine .inr ⟨event', hevent', hid'.trans hid, hversion'.trans hversion, ?_⟩
    rw [hpayload]
    exact hshows

/-- A request of a user leaves the scans as they mirror the events. -/
theorem mirrors_of_request {events : List Crawler.OutboxEvent} {delivering : Prop}
    {t t' : WorkflowTables} (h : Write env.control False delivering t t')
    (hmirrors : ∀ scan ∈ t.scans, Mirrors events scan) :
    ∀ scan ∈ t'.scans, Mirrors events scan := by
  cases h with
  | scanAdded now website keyHash correlationId =>
    intro scan hscan
    rcases List.mem_append.1 hscan with hscan | hscan
    · exact hmirrors scan hscan
    · rw [List.mem_singleton.1 hscan]
      exact .inl (.newScan _ _ _ _ _ _ _)
  | scanCancelling now correlationId scan hscan hstatus =>
    intro other hother
    rcases mem_replace hother with rfl | ⟨hother, -⟩
    · exact (hmirrors scan hscan).cancelling hstatus
    · exact hmirrors other hother
  | scanProjected _ _ _ _ _ _ _ _ _ _ _ _ _ hconsuming => exact hconsuming.elim
  | websiteAdded => exact hmirrors
  | websiteArchived => exact hmirrors
  | cloneAdded => exact hmirrors
  | cloneCancelled => exact hmirrors
  | cloneCancelling => exact hmirrors
  | ignored => exact hmirrors
  | cloneProjected => exact hmirrors
  | outboxMoved => exact hmirrors

theorem Stepped.mirrors (h : Stepped env s s') (hs : Healthy env s) (hcarried : Carried env s)
    (hmirrors : ∀ scan ∈ s.control.scans, Mirrors s.events scan) :
    ∀ scan ∈ s'.control.scans, Mirrors s'.events scan := by
  suffices hsuffices : ∀ scan ∈ s'.control.scans, Mirrors s.events scan from
    fun scan hscan ↦ (hsuffices scan hscan).mono fun _ hevent ↦ h.events_kept hs hevent
  cases h with
  | requested t hwrites =>
    exact hwrites.invariant (P := fun t : WorkflowTables ↦ ∀ scan ∈ t.scans, Mirrors s.events scan)
      mirrors_of_request hmirrors
  | siteCloneConsumed envelope outcome t henvelope hconsumed =>
    cases hconsumed with
    | duplicate => exact hmirrors
    | stale => exact hmirrors
    | applied => exact hmirrors
  | eventAccepted message outcome t hmessage hconsumed =>
    cases hconsumed with
    | duplicate => exact hmirrors
    | stale => exact hmirrors
    | applied scan next projection t₁ hscan hid howner hvalid hnew hprojection hnext
        hcoordinated =>
      intro other hother
      obtain ⟨event, hevent, -, hpayload⟩ := hcarried.messages message hmessage
      obtain ⟨-, hversion, hscanId⟩ := envelope_of_event hs hevent
      rw [show (t₁.withInbox _ _).scans = t₁.scans from rfl, hcoordinated.scans] at hother
      rcases mem_replace hother with rfl | ⟨hother, -⟩
      · obtain ⟨hremote, hshows⟩ :=
          shows_of_applied (Scan.projectionOf_some hprojection) hnext
        have hsame := (ScanMove.projected projection next
          (Scan.projectionOf_some hprojection).limit hnext).advances.1
        rw [hpayload] at hid hremote hshows
        refine .inr ⟨event, hevent, ?_, ?_, hshows⟩
        · exact hscanId.symm.trans (hid.symm.trans hsame.id.symm)
        · exact hversion.symm.trans hremote.symm
      · exact hmirrors other hother
  | idle => exact hmirrors
  | moved => exact hmirrors
  | crawled => exact hmirrors
  | commandAccepted => exact hmirrors
  | cancellationAccepted => exact hmirrors
  | drawn => exact hmirrors

/-! ### Events and their executions -/

/-- An execution has ended in public when it has ended. -/
theorem publicStatus_isTerminal (e : Crawler.Execution) :
    e.publicStatus.isTerminal = e.status.isTerminal := by
  unfold Crawler.Execution.publicStatus Crawler.publicStatus
  by_cases hactive : e.status.isTerminal = false
  · rw [if_pos hactive]
  · rw [if_neg hactive]
    rw [Bool.not_eq_false] at hactive
    rw [hactive]
    split_ifs <;> rfl

/-- An event reports a past of the execution of its scan. -/
theorem execution_of_event (hs : Healthy env s) {event : Crawler.OutboxEvent}
    (hevent : event ∈ s.events) :
    ∃ past, ∃ e ∈ s.crawler.store.executions, Crawler.Reports event past ∧ past.Reportable ∧
      Crawler.Advances past e ∧ e.scanId = event.aggregateId := by
  obtain ⟨past, hreports, hpast, e, he, hadvances⟩ := hs.telling.faithful.reports event hevent
  refine ⟨past, e, he, hreports, hpast, hadvances, ?_⟩
  rw [(Crawler.Execution.of_fixed_eq hadvances.fixed).2.1, hreports.spec.2.1]

/-- The same, for an execution that is known. -/
theorem past_of_event (hs : Healthy env s) {event : Crawler.OutboxEvent}
    (hevent : event ∈ s.events) {e : Crawler.Execution}
    (he : e ∈ s.crawler.store.executions) (hid : event.aggregateId = e.scanId) :
    ∃ past, Crawler.Reports event past ∧ past.Reportable ∧ Crawler.Advances past e := by
  obtain ⟨past, e', he', hreports, hpast, hadvances, hid'⟩ := execution_of_event hs hevent
  obtain rfl := eq_of_key_eq hs.telling.conserved.keyed.store.scanIds he' he (hid'.trans hid)
  exact ⟨past, hreports, hpast, hadvances⟩

/-- An event says the last of its execution when it says that the execution has ended. -/
theorem last_of_terminal (hs : Healthy env s) {event : Crawler.OutboxEvent}
    (hevent : event ∈ s.events) (hterminal : event.payload.payload.status.isTerminal = true)
    {e : Crawler.Execution} (he : e ∈ s.crawler.store.executions)
    (hid : event.aggregateId = e.scanId) : Crawler.Reports event e := by
  obtain ⟨past, hreports, -, hadvances⟩ := past_of_event hs hevent he hid
  have hended : past.publicStatus.isTerminal = true := by
    rw [hreports.spec.2.2.2.1] at hterminal
    exact hterminal
  rw [publicStatus_isTerminal] at hended
  rwa [hadvances.eq_of_terminal hended]

theorem version_le_of_event (hs : Healthy env s) {event : Crawler.OutboxEvent}
    (hevent : event ∈ s.events) {e : Crawler.Execution}
    (he : e ∈ s.crawler.store.executions) (hid : event.aggregateId = e.scanId) :
    event.aggregateVersion ≤ e.progressVersion := by
  obtain ⟨past, hreports, -, hadvances⟩ := past_of_event hs hevent he hid
  rw [hreports.spec.2.2.1]
  exact hadvances.version

/-! ### Events that have arrived -/

/-- The scan of the event shows it or a later one. -/
def Reached (scans : List Scan) (event : Crawler.OutboxEvent) : Prop :=
  ∃ scan ∈ scans, scan.id = event.aggregateId ∧
    event.aggregateVersion ≤ scan.remoteExecutionVersion

theorem Reached.grows {scans scans' : List Scan} {event : Crawler.OutboxEvent}
    (h : Reached scans event) (hgrows : Table.Grows Scan.Advances scans scans') :
    Reached scans' event := by
  obtain ⟨scan, hscan, hid, hversion⟩ := h
  obtain ⟨next, hnext, hadvances⟩ := hgrows.exists_of_mem hscan
  exact ⟨next, hnext, hadvances.same.id.trans hid, hversion.trans hadvances.remote⟩

theorem Reached.congr {scans : List Scan} {event event' : Crawler.OutboxEvent}
    (h : Reached scans event) (hsame : event.SameEvent event') : Reached scans event' := by
  obtain ⟨scan, hscan, hid, hversion⟩ := h
  obtain ⟨-, hid', hversion', -⟩ := hsame.spec
  exact ⟨scan, hscan, hid.trans hid'.symm, hversion'.trans_le hversion⟩

/-- A consumed event reaches its scan. An event that is ignored comes too late for it. -/
theorem reached_of_consumed (hs : Healthy env s) (hmirrors : ∀ scan ∈ s.control.scans,
    Mirrors s.events scan) {event : Crawler.OutboxEvent} (hevent : event ∈ s.events)
    {outcome : ConsumeOutcome} {t : WorkflowTables}
    (h : ScanEventConsumed env.control event.payload s.control outcome t) :
    event.messageId ∈ s.control.consumed ∨ Reached t.scans event := by
  obtain ⟨hmessage, hversion, hscanId⟩ := envelope_of_event hs hevent
  cases h with
  | duplicate record hrecord hid =>
    left
    rw [← hmessage, ← hid]
    exact List.mem_map_of_mem hrecord
  | stale scan hscan hid howner hnew hstale =>
    refine .inr ⟨scan, hscan, hid.trans hscanId, ?_⟩
    rcases hstale with hstale | hterminal
    · exact hversion ▸ hstale
    · rcases hmirrors scan hscan with huntouched | ⟨last, hlast, hid', hversion', hshows⟩
      · exact absurd (huntouched.active.symm.trans hterminal) Bool.false_ne_true
      · obtain ⟨-, e, he, -, -, -, hscan'⟩ := execution_of_event hs hlast
        have hreports := last_of_terminal hs hlast (hshows.ends ▸ hterminal) he hscan'.symm
        rw [← hversion', hreports.spec.2.2.1]
        exact version_le_of_event hs hevent he
          (hscanId.symm.trans (hid.symm.trans (hid'.symm.trans hscan'.symm)))
  | applied scan next projection t₁ hscan hid howner hvalid hnew hprojection hnext
      hcoordinated =>
    obtain ⟨hremote, -⟩ := shows_of_applied (Scan.projectionOf_some hprojection) hnext
    have hsame := (ScanMove.projected projection next
      (Scan.projectionOf_some hprojection).limit hnext).advances.1
    refine .inr ⟨{ next with version := next.version + 1 }, ?_, ?_, ?_⟩
    · rw [show (t₁.withInbox _ _).scans = t₁.scans from rfl, hcoordinated.scans]
      exact mem_replace_self hscan hsame.id.symm
    · exact hsame.id.trans (hid.trans hscanId)
    · exact (hversion.symm.trans hremote.symm).le

/-- What a step adds to the inbox. -/
theorem Stepped.consumed_cases (h : Stepped env s s') (hs : Healthy env s)
    (hcarried : Carried env s) (hmirrors : ∀ scan ∈ s.control.scans, Mirrors s.events scan)
    {id : Uuid} (hid : id ∈ s'.control.consumed) : id ∈ s.control.consumed ∨
      (∃ envelope ∈ s.siteCloneEvents, envelope.messageId = id) ∨
      ∃ event ∈ s.events, event.messageId = id ∧ Reached s'.control.scans event := by
  cases h with
  | requested t hwrites =>
    rw [WorkflowTables.consumed, hwrites.inbox_eq] at hid
    exact .inl hid
  | siteCloneConsumed envelope outcome t henvelope hconsumed =>
    obtain ⟨record, hrecord, rfl⟩ := List.mem_map.1 hid
    cases hconsumed with
    | duplicate => exact .inl hid
    | stale =>
      rcases List.mem_append.1 hrecord with hrecord | hrecord
      · exact .inl (List.mem_map_of_mem hrecord)
      · rw [List.mem_singleton.1 hrecord]
        exact .inr (.inl ⟨envelope, henvelope, rfl⟩)
    | applied =>
      rcases List.mem_append.1 hrecord with hrecord | hrecord
      · exact .inl (List.mem_map_of_mem hrecord)
      · rw [List.mem_singleton.1 hrecord]
        exact .inr (.inl ⟨envelope, henvelope, rfl⟩)
  | eventAccepted message outcome t hmessage hconsumed =>
    obtain ⟨event, hevent, -, hpayload⟩ := hcarried.messages message hmessage
    obtain ⟨record, hrecord, rfl⟩ := List.mem_map.1 hid
    have hadded := (inbox_of_consumed hconsumed).2 record hrecord
    rw [hpayload] at hconsumed hadded
    rcases hadded with hrecord | ⟨hrecorded, -⟩
    · exact .inl (List.mem_map_of_mem hrecord)
    · rw [hrecorded, messageId_of_event hs hevent]
      rcases reached_of_consumed hs hmirrors hevent hconsumed with hold | hreached
      · exact .inl hold
      · exact .inr (.inr ⟨event, hevent, rfl, hreached⟩)
  | idle => exact .inl hid
  | moved => exact .inl hid
  | crawled => exact .inl hid
  | commandAccepted => exact .inl hid
  | cancellationAccepted => exact .inl hid
  | drawn => exact .inl hid

theorem Carried.consumed_lt (hcarried : Carried env s) (hs : Healthy env s) {id : Uuid}
    (hid : id ∈ s.control.consumed) : id < s.crawler.store.nextUuid := by
  obtain ⟨record, hrecord, rfl⟩ := List.mem_map.1 hid
  rcases hcarried.recorded record hrecord with ⟨event, hevent, hsame, -⟩ |
    ⟨envelope, henvelope, hsame⟩
  · rw [← hsame]
    exact hs.telling.faithful.fresh event hevent
  · rw [← hsame]
    exact (hcarried.distinct envelope henvelope).1

theorem Stepped.reached (h : Stepped env s s') (hs : Healthy env s) (hcarried : Carried env s)
    (hmirrors : ∀ scan ∈ s.control.scans, Mirrors s.events scan)
    (hreached : ∀ event ∈ s.events, event.messageId ∈ s.control.consumed →
      Reached s.control.scans event) :
    ∀ event ∈ s'.events, event.messageId ∈ s'.control.consumed →
      Reached s'.control.scans event := by
  intro event' hevent' hconsumed
  have hcases := h.consumed_cases hs hcarried hmirrors hconsumed
  rcases (h.crawler.fresh hs.telling.conserved.keyed).2 event' hevent' with
    ⟨event, hevent, hsame⟩ | hfresh
  · refine Reached.congr ?_ hsame
    rw [hsame.spec.2.2.2.2] at hcases
    rcases hcases with hold | ⟨envelope, henvelope, hid⟩ | ⟨other, hother, hid, hreached'⟩
    · exact (hreached event hevent hold).grows (h.scans_grow hs)
    · exact absurd hid.symm ((hcarried.distinct envelope henvelope).2 event hevent)
    · obtain rfl := eq_of_key_eq hs.telling.faithful.messageIds hother hevent hid
      exact hreached'
  · exfalso
    refine absurd hfresh (Nat.not_le.2 ?_)
    rcases hcases with hold | ⟨envelope, henvelope, hid⟩ | ⟨other, hother, hid, -⟩
    · exact hcarried.consumed_lt hs hold
    · exact hid ▸ (hcarried.distinct envelope henvelope).1
    · exact hid ▸ hs.telling.faithful.fresh other hother

/-! ### Every run -/

/-- An execution that has ended has left its first version. -/
def EndsLater (store : Crawler.Store) : Prop :=
  ∀ e ∈ store.executions, e.status.isTerminal = true → 0 < e.progressVersion

theorem EndsLater.change {store store' : Crawler.Store} (h : EndsLater store)
    (hchange : Crawler.Change env.crawler store store')
    (hreportable : Crawler.AllReportable store) : EndsLater store' := by
  intro e' he' hterminal
  cases hchange with
  | worked hevolves =>
    obtain ⟨e, he, hsteps⟩ := hevolves e' he'
    have hversion := (hreportable e he).version
    rcases hsteps.advances.version.eq_or_lt with hsame | hlater
    · have heq := hsteps.advances.eq_of_version hsame.symm
      rw [heq] at hterminal ⊢
      exact h e he hterminal
    · exact hversion.trans_lt hlater
  | started now receivedAt envelope url hvalid hnew hs' =>
    rw [hs'] at he'
    rcases List.mem_append.1 he' with he' | he'
    · exact h e' he' hterminal
    · rw [List.mem_singleton.1 he'] at hterminal
      cases hterminal
  | cancelled now receivedAt envelope e hvalid he hscan hactive hexecutions =>
    rcases hexecutions e' he' with rfl | ⟨hold, -⟩
    · exact Int.lt_add_one_of_le (hreportable e he).version
    · exact h e' hold hterminal

/-- Every scan mirrors the events, every event that was consumed has reached its scan, and an
execution ends in a later version than it starts. -/
structure Mirrored (s : State) : Prop where
  mirrors : ∀ scan ∈ s.control.scans, Mirrors s.events scan
  reached : ∀ event ∈ s.events, event.messageId ∈ s.control.consumed →
    Reached s.control.scans event
  endsLater : EndsLater s.crawler.store

theorem Stepped.mirrored (h : Stepped env s s') (hs : Healthy env s) (hcarried : Carried env s)
    (hmirrored : Mirrored s) : Mirrored s' where
  mirrors := h.mirrors hs hcarried hmirrored.mirrors
  reached := h.reached hs hcarried hmirrored.mirrors hmirrored.reached
  endsLater := hmirrored.endsLater.change (h.crawler.conserved hs.telling.conserved).2.2
    hs.telling.reportable

theorem mirrored_empty : Mirrored {} where
  mirrors := fun _ h ↦ absurd h List.not_mem_nil
  reached := fun _ h ↦ absurd h List.not_mem_nil
  endsLater := fun _ h ↦ absurd h List.not_mem_nil

/-- What the services keep together. -/
structure Consistent (env : Env) (s : State) : Prop where
  healthy : Healthy env s
  linked : Linked s
  carried : Carried env s
  mirrored : Mirrored s

theorem Stepped.consistent (h : Stepped env s s') (hs : Consistent env s) : Consistent env s' where
  healthy := h.healthy hs.healthy
  linked := h.linked hs.healthy hs.linked
  carried := h.carried hs.healthy hs.linked hs.carried
  mirrored := h.mirrored hs.healthy hs.carried hs.mirrored

theorem consistent_after (env : Env) (actions : List Action) :
    Consistent env (State.after env actions) :=
  after_invariant ⟨healthy_empty, linked_empty, carried_empty, mirrored_empty⟩
    Stepped.consistent actions

/-! ### Agreement -/

/-- The execution has ended, and the scan shows how. -/
structure Concluded (scan : Scan) (e : Crawler.Execution) : Prop where
  ended : e.status.isTerminal = true
  version : scan.remoteExecutionVersion = e.progressVersion
  outcome : Outcome scan e.progressPayload
  counts : Counts scan e.progressPayload

/-- A scan that shows the last of its execution shows how it ended. -/
theorem concluded_of_shows {scan : Scan} {e : Crawler.Execution}
    (hended : e.status.isTerminal = true)
    (hversion : scan.remoteExecutionVersion = e.progressVersion)
    (hshows : Shows scan e.progressPayload) : Concluded scan e := by
  have hterminal : e.progressPayload.status.isTerminal = true :=
    (publicStatus_isTerminal e).trans hended
  refine ⟨hended, hversion, hshows.outcome hterminal, hshows.counts fun hqueued ↦ ?_⟩
  rw [hqueued] at hterminal
  cases hterminal

/-- The scan of an execution. -/
theorem Consistent.scan_eq (h : Consistent env s) {scan : Scan} (hscan : scan ∈ s.control.scans)
    {e : Crawler.Execution} (he : e ∈ s.crawler.store.executions) (hid : e.scanId = scan.id) :
    ExecutionOf scan e := by
  obtain ⟨other, hother, hof⟩ := h.linked.executions e he
  obtain rfl := eq_of_key_eq h.healthy.sound.numbered.scans.1 hother hscan
    (hof.scanId.symm.trans hid)
  exact hof

theorem Consistent.remote_le (h : Consistent env s) {scan : Scan} (hscan : scan ∈ s.control.scans)
    {e : Crawler.Execution} (he : e ∈ s.crawler.store.executions) (hid : e.scanId = scan.id) :
    scan.remoteExecutionVersion ≤ e.progressVersion := by
  rcases h.mirrored.mirrors scan hscan with huntouched | ⟨event, hevent, hid', hversion, -⟩
  · rw [huntouched.remote]
    exact (h.healthy.telling.reportable e he).version
  · rw [← hversion]
    exact version_le_of_event h.healthy hevent he (hid'.trans hid.symm)

/-- A scan ends only as its execution has ended. -/
theorem Consistent.concluded (h : Consistent env s) {scan : Scan} (hscan : scan ∈ s.control.scans)
    (hterminal : scan.status.isTerminal = true) :
    ∃ e ∈ s.crawler.store.executions, ExecutionOf scan e ∧ Concluded scan e := by
  rcases h.mirrored.mirrors scan hscan with huntouched | ⟨event, hevent, hid, hversion, hshows⟩
  · exact absurd (huntouched.active.symm.trans hterminal) Bool.false_ne_true
  obtain ⟨-, e, he, -, -, -, hid'⟩ := execution_of_event h.healthy hevent
  have hreports := last_of_terminal h.healthy hevent (hshows.ends ▸ hterminal) he hid'.symm
  obtain ⟨-, -, hversion', hpayload, -⟩ := hreports.spec
  rw [hpayload] at hshows
  refine ⟨e, he, h.scan_eq hscan he (hid'.trans hid), concluded_of_shows ?_
    (hversion.symm.trans hversion') hshows⟩
  rw [← publicStatus_isTerminal]
  exact hshows.ends.symm.trans hterminal

/-- A scan that the last event of its execution has reached shows how the execution ended. -/
theorem Consistent.concluded_of_reached (h : Consistent env s) {scan : Scan}
    (hscan : scan ∈ s.control.scans) {e : Crawler.Execution}
    (he : e ∈ s.crawler.store.executions) (hof : ExecutionOf scan e)
    (hended : e.status.isTerminal = true) {event : Crawler.OutboxEvent}
    (hid : event.aggregateId = e.scanId) (hversion : event.aggregateVersion = e.progressVersion)
    (hreached : Reached s.control.scans event) : Concluded scan e := by
  obtain ⟨reached, hmem, hid', hge⟩ := hreached
  obtain rfl := eq_of_key_eq h.healthy.sound.numbered.scans.1 hmem hscan
    (hid'.trans (hid.trans hof.scanId))
  have hremote : reached.remoteExecutionVersion = e.progressVersion :=
    le_antisymm (h.remote_le hscan he hof.scanId) (hversion ▸ hge)
  rcases h.mirrored.mirrors reached hscan with huntouched | ⟨shown, hshown, hid₂, hversion₂, hshows⟩
  · have hpositive := h.mirrored.endsLater e he hended
    rw [← hremote, huntouched.remote] at hpositive
    exact absurd hpositive (lt_irrefl 0)
  · obtain ⟨past, hreports, -, hadvances⟩ :=
      past_of_event h.healthy hshown he (hid₂.trans hof.scanId.symm)
    have hsame := hadvances.eq_of_version
      (hremote.symm.trans (hversion₂.symm.trans hreports.spec.2.2.1))
    rw [hreports.spec.2.2.2.1, ← hsame] at hshows
    exact concluded_of_shows hended hremote hshows

/-- Whatever comes in any order: a scan that has ended shows how its execution ended, an execution
belongs to a scan which is not ahead of it, and an execution that has ended has a last event, with
whose delivery the scan has ended too and shows the same status, counters, code and message. -/
theorem scans_mirror (env : Env) (actions : List Action) :
    (∀ scan ∈ (State.after env actions).control.scans, scan.status.isTerminal = true →
      ∃ e ∈ (State.after env actions).crawler.store.executions,
        ExecutionOf scan e ∧ Concluded scan e) ∧
    ∀ e ∈ (State.after env actions).crawler.store.executions,
      ∃ scan ∈ (State.after env actions).control.scans, ExecutionOf scan e ∧
        scan.remoteExecutionVersion ≤ e.progressVersion ∧
        (e.status.isTerminal = true → ∃ event ∈ (State.after env actions).events,
          event.aggregateId = e.scanId ∧ event.aggregateVersion = e.progressVersion ∧
          (event.status = .delivered → Concluded scan e)) := by
  have h := consistent_after env actions
  refine ⟨fun scan hscan ↦ h.concluded hscan, fun e he ↦ ?_⟩
  obtain ⟨scan, hscan, hof⟩ := h.linked.executions e he
  refine ⟨scan, hscan, hof, h.remote_le hscan he hof.scanId, fun hended ↦ ?_⟩
  obtain ⟨event, hevent, hid, hversion⟩ := (h.healthy.telling.told e he).terminal hended
  refine ⟨event, hevent, hid, hversion, fun hdelivered ↦ ?_⟩
  exact h.concluded_of_reached hscan he hof hended hid hversion
    (h.mirrored.reached event hevent (h.carried.events event hevent hdelivered))

end WebLens.Scanning
