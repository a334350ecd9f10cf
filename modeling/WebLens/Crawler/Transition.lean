import WebLens.Crawler.Effects

/-!
# Steps of the crawler

`Transition` lists everything a step of the system can do, with the facts its transaction checked;
`step_transition` says the list is complete. Every invariant of the crawler is proved by cases on a
transition and then holds after every run by `after_invariant`.
-/

set_option autoImplicit false
set_option relaxedAutoImplicit false

namespace WebLens.Crawler

open Lib Lib.Transaction

/-- The instants with which an action compares the expiry of leases. -/
def Action.readings : Action → List Instant
  | .claimPage now _ _ _ => [now]
  | .reclaimExpired clock _ => [clock.leaseUpdate, clock.hosts]
  | _ => []

/-- What one step of the system does, when it compares the expiry of leases with the readings. -/
inductive TransitionAt (env : Env) (readings : List Instant) (sys : System) : System → Prop
  /-- The transaction failed, or found nothing to do. -/
  | unchanged : TransitionAt env readings sys sys
  /-- A claim found no page; its worker identifier was drawn. -/
  | idle : TransitionAt env readings sys { sys with
      store := { sys.store with nextUuid := sys.store.nextUuid + 1 } }
  /-- A command or cancellation came too late for its execution. -/
  | stale (message : InboxMessage) (houtcome : message.outcome = .ignoredStale)
      (hscan : ∃ e ∈ sys.store.executions, e.scanId = message.aggregateId) :
      TransitionAt env readings sys { sys with store := sys.store.withInbox message }
  /-- A command started an execution. -/
  | started (now receivedAt : Instant) (envelope : ScanCommandEnvelope)
      (normalizedURL : Utf8.ByteString) (hvalid : envelope.validate env = [])
      (hnew : ∀ e ∈ sys.store.executions, e.scanId ≠ envelope.payload.scanId) :
      TransitionAt env readings sys { sys with
        store := sys.store.started env now receivedAt envelope normalizedURL }
  /-- A cancellation cancelled the queued and leased pages of an execution. -/
  | cancelled (now receivedAt : Instant) (envelope : ScanCancelCommandEnvelope) (e e' : Execution)
      (hvalid : envelope.validate = []) (he : e ∈ sys.store.executions)
      (hscan : e.scanId = envelope.payload.scanId) (howner : e.ownerId = envelope.payload.ownerId)
      (hversion : e.commandVersion < envelope.aggregateVersion)
      (hactive : e.status.isTerminal = false)
      (he' : (sys.store.cancelled envelope.aggregateVersion now e).executions.find?
        (fun e' ↦ decide (e'.id = e.id)) = some e') :
      TransitionAt env readings sys { sys with
        store := ((sys.store.cancelled envelope.aggregateVersion now e).withProgressEvent e'
          envelope.correlationId now).withInbox (envelope.inboxRow env .applied receivedAt) }
  /-- A worker leased a page and a host slot. -/
  | claimed (now leaseUntil : Instant) (hostDelay : Duration) (locks : ClaimLocks)
      (e : Execution) (host : HostLease) (page : Page) (correlationId : Uuid) (e' : Execution)
      (hnow : now ∈ readings)
      (hrows : claimRows env now locks sys.store = some (e, host, page, correlationId))
      (hhost : (sys.store.hostLeases.countP fun host' ↦
        decide (host'.hostname = e.targetHostname) && host'.isSlot page.hostname host.slotNo) = 1)
      (he' : (sys.store.claimed now leaseUntil (now + hostDelay)
        (newLease sys.store.nextUuid e host page correlationId)
        e.targetHostname).executions.find? (fun e' ↦ decide (e'.id = page.executionId)) = some e') :
      TransitionAt env readings sys { sys with
        store := Store.withProgressEvent { sys.store.claimed now leaseUntil (now + hostDelay)
          (newLease sys.store.nextUuid e host page correlationId) e.targetHostname with
            nextUuid := sys.store.nextUuid + 1 } e' correlationId now
        leases := newLease sys.store.nextUuid e host page correlationId :: sys.leases }
  /-- A worker extended a lease it still holds. -/
  | extended (leaseUntil : Instant) (lease : PageLease) (hlease : lease ∈ sys.leases)
      (hpage : sys.store.pages.countP (Page.isLeasedUnder lease) = 1)
      (hhost : sys.store.hostLeases.countP (HostLease.isLeasedUnder lease) = 1) :
      TransitionAt env readings sys { sys with store := sys.store.extended leaseUntil lease }
  /-- A worker returned a transient failure. -/
  | requeued (now : Instant) (lease : PageLease) (result : PageResult) (page : Page)
      (e : Execution) (hlease : lease ∈ sys.leases) (hpage : page ∈ sys.store.pages)
      (hleased : page.isLeasedUnder lease = true)
      (hhost : sys.store.hostLeases.countP (HostLease.isLeasedUnder lease) = 1)
      (hretry : shouldRetryPage env result page.attemptCount = true)
      (he : (sys.store.requeued now lease page.attemptCount).executions.find?
        (fun e ↦ decide (e.id = lease.executionId)) = some e) :
      TransitionAt env readings sys { sys with
        store := (sys.store.requeued now lease page.attemptCount).withProgressEvent e
          lease.correlationId now }
  /-- A worker returned a result. -/
  | staged (now : Instant) (lease : PageLease) (result : PageResult) (page : Page)
      (added : List Page) (payload : Utf8.ByteString) (outboxId : Uuid) (e : Execution)
      (hlease : lease ∈ sys.leases) (hpage : page ∈ sys.store.pages)
      (hleased : page.isLeasedUnder lease = true)
      (hhost : sys.store.hostLeases.countP (HostLease.isLeasedUnder lease) = 1)
      (hretry : shouldRetryPage env result page.attemptCount = false)
      (hpayload : env.jsonb ((analyticsPayload lease result (page.resultVersion + 1)).marshal env) =
        some payload)
      (hadded : Discovered lease now sys.store.nextUuid outboxId added)
      (hlimit : added ≠ [] → ∃ e,
        sys.store.executions.find? (fun e ↦ decide (e.id = lease.executionId)) = some e ∧
          e.discoveredCount + added.length ≤ lease.maxPages)
      (he : (sys.store.staged env now lease result (page.resultVersion + 1) payload added
        outboxId).executions.find? (fun e ↦ decide (e.id = lease.executionId)) = some e)
      (hurls : added.map Page.normalizedURL =
        discoveredURLs env lease result.links.elements sys.store) :
      TransitionAt env readings sys { sys with
        store := (sys.store.staged env now lease result (page.resultVersion + 1) payload added
          outboxId).withProgressEvent e lease.correlationId now }
  /-- A worker took batches of analytics. -/
  | analyticsClaimed (leaseUntil : Instant) (workerId : Uuid) (ids : List Uuid)
      (rows : List AnalyticsOutboxRow)
      (hrows : rows = Table.update (fun row ↦ decide (row.id ∈ ids))
        (AnalyticsOutboxRow.claim workerId leaseUntil) sys.store.analyticsOutbox)
      (hdue : ∀ id ∈ ids, ∃ row ∈ sys.store.analyticsOutbox, row.id = id ∧
        row.status ≠ .delivered) :
      TransitionAt env readings sys { sys with
        store := { sys.store with analyticsOutbox := rows }
        batches := ((rows.filter fun row ↦ decide (row.id ∈ ids)).map fun row ↦
          row.batch workerId) ++ sys.batches }
  /-- A worker delivered a batch. -/
  | published (now : Instant) (batch : AnalyticsBatch) (page : Page)
      (terminalStatus : TerminalStatus) (e : Execution) (correlationId : Uuid)
      (hbatch : batch ∈ sys.batches)
      (hrow : sys.store.analyticsOutbox.countP (AnalyticsOutboxRow.isClaimedBy batch) = 1)
      (hpage : page ∈ sys.store.pages)
      (hkey : page.hasKey batch.retentionMonth batch.pageId = true)
      (hstatus : page.status = .persisting)
      (hpending : page.pendingTerminalStatus = some terminalStatus)
      (he : (sys.store.published now batch terminalStatus).executions.find?
        (fun e ↦ decide (e.id = batch.executionId)) = some e)
      (hcorrelation : requestCorrelation e.scanId sys.store.inboxMessages = some correlationId) :
      TransitionAt env readings sys { sys with
        store := (sys.store.published now batch terminalStatus).withProgressEvent e correlationId
          now }
  /-- A delivery of analytics failed. -/
  | analyticsRetried (now : Instant) (batch : AnalyticsBatch) (hbatch : batch ∈ sys.batches) :
      TransitionAt env readings sys { sys with store := { sys.store with
        analyticsOutbox := Table.update (AnalyticsOutboxRow.isClaimedBy batch) (fun row ↦
          { row with
            status := retryStatus row.deliveryAttempts
            availableAt := retryAt now row.deliveryAttempts
              (retryDelay batch.deliveryAttempts batch.id)
            leaseOwner := none
            leaseExpiresAt := none }) sys.store.analyticsOutbox } }
  /-- Events were claimed, delivered or retried. -/
  | eventsMoved (sel : OutboxEvent → Bool) (set : OutboxEvent → OutboxEvent)
      (messages : List OutboxMessage) (hset : ∀ event : OutboxEvent, event.SameEvent (set event))
      (hmove : EventMove sys.store.outboxEvents sel set) :
      TransitionAt env readings sys { sys with
        store := { sys.store with
          outboxEvents := Table.update sel set sys.store.outboxEvents }
        messages := messages ++ sys.messages }
  /-- Expired leases and deadlines were reclaimed. -/
  | reclaimed (clock : ReclaimClock) (locks : ReclaimLocks) (s' : Store)
      (hpages : clock.leaseUpdate ∈ readings) (hhosts : clock.hosts ∈ readings)
      (hevents : ProgressEvents clock.now (sys.store.affected clock locks)
        (sys.store.reclaimed clock locks) s') :
      TransitionAt env readings sys { sys with store := s' }

/-- What one step of the system does. -/
def Transition (env : Env) (sys sys' : System) : Prop :=
  ∃ readings, TransitionAt env readings sys sys'

/-- The aggregate of a valid command is its scan. -/
theorem ScanCancelCommandEnvelope.aggregateId_of_validate {e : ScanCancelCommandEnvelope}
    (h : e.validate = []) : e.aggregateId = e.payload.scanId ∧ 1 ≤ e.aggregateVersion := by
  simp only [validate, List.append_eq_nil_iff, problemIf_eq_nil, not_or, not_lt, not_not] at h
  exact ⟨h.2.1, h.1.2.1⟩

/-- Every step of the system is a transition at the readings of its action. -/
theorem step_transitionAt (env : Env) (sys : System) (action : Action) :
    TransitionAt env action.readings sys (sys.step env action) := by
  cases action with
  | acceptCommand now receivedAt envelope =>
    rw [System.step]
    rcases commit_cases (acceptCommand env now receivedAt envelope) sys.store with
      ⟨duplicate, s', hcommit, h⟩ | ⟨e, hcommit⟩
    · rw [hcommit]
      obtain ⟨hvalid, ⟨-, -, -, rfl⟩ | ⟨-, ⟨e, he, hscan, -, rfl⟩ | ⟨hnew, url, -, rfl⟩⟩⟩ :=
        acceptCommand_cases h
      · exact .unchanged
      · have hid := (ScanCommandEnvelope.limits_of_validate hvalid).1
        exact .stale (envelope.inboxRow env .ignoredStale receivedAt) rfl
          ⟨e, he, hscan.trans hid.symm⟩
      · exact .started now receivedAt envelope url hvalid hnew
    · rw [hcommit]
      exact .unchanged
  | acceptCancellation now receivedAt envelope =>
    rw [System.step]
    rcases commit_cases (acceptCancellation env now receivedAt envelope) sys.store with
      ⟨duplicate, s', hcommit, h⟩ | ⟨e, hcommit⟩
    · rw [hcommit]
      obtain ⟨hvalid, ⟨-, -, -, rfl⟩ | ⟨-, e, he, hscan, howner, ⟨-, rfl⟩ |
        ⟨hversion, hactive, e', he', rfl⟩⟩⟩ := acceptCancellation_cases h
      · exact .unchanged
      · have hid := (ScanCancelCommandEnvelope.aggregateId_of_validate hvalid).1
        exact .stale (envelope.inboxRow env .ignoredStale receivedAt) rfl
          ⟨e, he, hscan.trans hid.symm⟩
      · exact .cancelled now receivedAt envelope e e' hvalid he hscan howner hversion hactive he'
    · rw [hcommit]
      exact .unchanged
  | claimPage now leaseUntil hostDelay locks =>
    rw [System.step]
    rcases commit_cases (dispatchClaim env now leaseUntil hostDelay locks) sys.store with
      ⟨result, s', hcommit, h⟩ | ⟨e, hcommit⟩
    · rw [hcommit]
      obtain ⟨rfl, rfl⟩ | ⟨e, host, page, correlationId, e', hrows, rfl, hhost, he', rfl⟩ :=
        dispatchClaim_cases h
      · exact .idle
      · exact .claimed now leaseUntil hostDelay locks e host page correlationId e'
          (List.mem_singleton_self now) hrows hhost he'
    · rw [hcommit]
      exact .unchanged
  | extendPageLease leaseUntil lease =>
    rw [System.step]
    split_ifs with hlease
    · rcases commit_cases (extendPageLease leaseUntil lease) sys.store with
        ⟨u, s', hcommit, h⟩ | ⟨e, hcommit⟩
      · rw [hcommit]
        obtain ⟨hpage, hhost, rfl⟩ := extendPageLease_cases h
        exact .extended leaseUntil lease hlease hpage hhost
      · rw [hcommit]
        exact .unchanged
    · exact .unchanged
  | commitPageResult now lease result =>
    rw [System.step]
    split_ifs with hlease
    · rcases commit_cases (commitPageResult env now lease result) sys.store with
        ⟨u, s', hcommit, h⟩ | ⟨e, hcommit⟩
      · rw [hcommit]
        obtain ⟨page, hpage, hleased, hhost, ⟨hretry, e, he, rfl⟩ |
          ⟨hretry, added, payload, outboxId, e, hpayload, hadded, hurls, hlimit, he, rfl⟩⟩ :=
          commitPageResult_cases h
        · exact .requeued now lease result page e hlease hpage hleased hhost hretry he
        · exact .staged now lease result page added payload outboxId e hlease hpage hleased hhost
            hretry hpayload hadded hlimit he hurls
      · rw [hcommit]
        exact .unchanged
    · exact .unchanged
  | claimAnalytics now leaseUntil locked workerId limit =>
    rw [System.step]
    rcases commit_cases (claimAnalytics now leaseUntil locked workerId limit) sys.store with
      ⟨batches, s', hcommit, h⟩ | ⟨e, hcommit⟩
    · rw [hcommit]
      obtain ⟨ids, rfl, rfl, hdue⟩ := claimAnalytics_cases h
      exact .analyticsClaimed leaseUntil workerId ids _ rfl hdue
    · rw [hcommit]
      exact .unchanged
  | completeAnalytics now batch =>
    rw [System.step]
    split_ifs with hbatch
    · rcases commit_cases (completeAnalytics now batch) sys.store with
        ⟨u, s', hcommit, h⟩ | ⟨e, hcommit⟩
      · rw [hcommit]
        obtain ⟨hrow, page, hpage, terminalStatus, e, correlationId, hkey, hstatus, hpending, he,
          hcorrelation, rfl⟩ := completeAnalytics_cases h
        exact .published now batch page terminalStatus e correlationId hbatch hrow hpage hkey
          hstatus hpending he hcorrelation
      · rw [hcommit]
        exact .unchanged
    · exact .unchanged
  | retryAnalytics now batch =>
    rw [System.step]
    split_ifs with hbatch
    · rcases commit_cases (retryAnalytics now batch) sys.store with ⟨u, s', hcommit, h⟩ | ⟨e, hcommit⟩
      · rw [hcommit, retryAnalytics_cases h]
        exact .analyticsRetried now batch hbatch
      · rw [hcommit]
        exact .unchanged
    · exact .unchanged
  | claimEvents now leaseUntil locked workerId limit =>
    rw [System.step]
    rcases commit_cases (claimEvents now leaseUntil locked workerId limit) sys.store with
      ⟨messages, s', hcommit, h⟩ | ⟨e, hcommit⟩
    · rw [hcommit]
      obtain ⟨sel, set, hset, hmove, rfl, -⟩ := claimEvents_cases h
      exact .eventsMoved sel set messages hset hmove
    · rw [hcommit]
      exact .unchanged
  | completeEvent now message =>
    rw [System.step]
    split_ifs with hmessage
    · rcases commit_cases (completeEvent now message) sys.store with ⟨u, s', hcommit, h⟩ | ⟨e, hcommit⟩
      · rw [hcommit]
        obtain ⟨sel, set, hset, hmove, rfl⟩ := completeEvent_cases h
        exact .eventsMoved sel set [] hset hmove
      · rw [hcommit]
        exact .unchanged
    · exact .unchanged
  | retryEvent now message =>
    rw [System.step]
    split_ifs with hmessage
    · rcases commit_cases (retryEvent now message) sys.store with ⟨u, s', hcommit, h⟩ | ⟨e, hcommit⟩
      · rw [hcommit]
        obtain ⟨sel, set, hset, hmove, rfl⟩ := retryEvent_cases h
        exact .eventsMoved sel set [] hset hmove
      · rw [hcommit]
        exact .unchanged
    · exact .unchanged
  | reclaimExpired clock locks =>
    rw [System.step]
    rcases commit_cases (reclaimExpired clock locks) sys.store with ⟨u, s', hcommit, h⟩ | ⟨e, hcommit⟩
    · rw [hcommit]
      exact .reclaimed clock locks s' List.mem_cons_self
        (List.mem_cons_of_mem _ (List.mem_singleton_self _)) (reclaimExpired_cases h)
    · rw [hcommit]
      exact .unchanged

/-- Every step of the system is a transition. -/
theorem step_transition (env : Env) (sys : System) (action : Action) :
    Transition env sys (sys.step env action) :=
  ⟨_, step_transitionAt env sys action⟩

/-- What every transition preserves holds after every run. -/
theorem after_invariant {env : Env} {P : System → Prop} (hinit : P {})
    (hstep : ∀ {sys sys'}, Transition env sys sys' → P sys → P sys') (actions : List Action) :
    P (System.after env actions) :=
  run_invariant (fun sys action h ↦ hstep (step_transition env sys action) h) hinit actions

end WebLens.Crawler
