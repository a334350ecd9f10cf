import WebLens.Crawler.System

/-!
# What each transaction does

One lemma for each transaction says what the store is after it, with everything the transaction
checked on the way. The later modules derive every invariant from these lemmas and never unfold a
transaction again.
-/

set_option autoImplicit false
set_option relaxedAutoImplicit false

namespace WebLens.Crawler

open Lib Lib.Transaction

variable {env : Env} {s s' : Store}

/-! ### Statements -/

@[simp]
theorem returns_newUuid {id : Uuid} :
    Returns newUuid s id s' ↔ id = s.nextUuid ∧ s' = { s with nextUuid := s.nextUuid + 1 } := by
  simp only [newUuid, returns_modifyGet, Prod.mk.injEq]
  exact and_congr eq_comm eq_comm

@[simp]
theorem returns_updateExecution {id : Uuid} {set : Execution → Execution} {u : Unit} :
    Returns (updateExecution id set) s u s' ↔
      s' = { s with executions := Table.update (fun e ↦ decide (e.id = id)) set s.executions } :=
  returns_modify

@[simp]
theorem returns_updatePages {sel : Page → Bool} {set : Page → Page} {rows : ℕ} :
    Returns (updatePages sel set) s rows s' ↔
      rows = s.pages.countP sel ∧ s' = { s with pages := Table.update sel set s.pages } := by
  simp only [updatePages, returns_modifyGet, Prod.mk.injEq]
  exact and_congr eq_comm eq_comm

@[simp]
theorem returns_updateHostLeases {sel : HostLease → Bool} {set : HostLease → HostLease}
    {rows : ℕ} :
    Returns (updateHostLeases sel set) s rows s' ↔
      rows = s.hostLeases.countP sel ∧
        s' = { s with hostLeases := Table.update sel set s.hostLeases } := by
  simp only [updateHostLeases, returns_modifyGet, Prod.mk.injEq]
  exact and_congr eq_comm eq_comm

@[simp]
theorem returns_updateAnalyticsOutbox {sel : AnalyticsOutboxRow → Bool}
    {set : AnalyticsOutboxRow → AnalyticsOutboxRow} {rows : ℕ} :
    Returns (updateAnalyticsOutbox sel set) s rows s' ↔
      rows = s.analyticsOutbox.countP sel ∧
        s' = { s with analyticsOutbox := Table.update sel set s.analyticsOutbox } := by
  simp only [updateAnalyticsOutbox, returns_modifyGet, Prod.mk.injEq]
  exact and_congr eq_comm eq_comm

@[simp]
theorem returns_updateOutboxEvents {sel : OutboxEvent → Bool} {set : OutboxEvent → OutboxEvent}
    {rows : ℕ} :
    Returns (updateOutboxEvents sel set) s rows s' ↔
      rows = s.outboxEvents.countP sel ∧
        s' = { s with outboxEvents := Table.update sel set s.outboxEvents } := by
  simp only [updateOutboxEvents, returns_modifyGet, Prod.mk.injEq]
  exact and_congr eq_comm eq_comm

@[simp]
theorem returns_insertInbox {messageId aggregateId : Uuid} {aggregateVersion : ℤ}
    {messageType : CommandType} {correlationId : Uuid} {payloadHash : Utf8.ByteString}
    {outcome : InboxOutcome} {receivedAt : Instant} {u : Unit} :
    Returns (insertInbox messageId aggregateId aggregateVersion messageType correlationId
        payloadHash outcome receivedAt) s u s' ↔
      s' = { s with inboxMessages := s.inboxMessages ++ [{
        messageId := messageId, aggregateId := aggregateId, aggregateVersion := aggregateVersion,
        messageType := messageType, correlationId := correlationId, payloadSHA256 := payloadHash,
        outcome := outcome, receivedAt := receivedAt }] } :=
  returns_modify

/-- The store after the progress event of an execution. -/
def Store.withProgressEvent (s : Store) (e : Execution) (correlationId : Uuid) (now : Instant) :
    Store :=
  { s with
    outboxEvents := s.outboxEvents ++
      progressRows e (e.progressEnvelope s.nextUuid correlationId now) now s.outboxEvents
    nextUuid := s.nextUuid + 1 }

@[simp]
theorem returns_insertProgressEvent {executionId correlationId : Uuid} {now : Instant} {u : Unit} :
    Returns (insertProgressEvent executionId correlationId now) s u s' ↔
      ∃ e, s.executions.find? (fun e ↦ decide (e.id = executionId)) = some e ∧
        s' = s.withProgressEvent e correlationId now := by
  simp only [insertProgressEvent, returns_bind, returns_get, returns_found, returns_newUuid,
    returns_modify, exists_and_left, exists_eq_left, and_assoc, Store.withProgressEvent]

@[simp]
theorem returns_insertCorrelatedProgressEvent {executionId : Uuid} {now : Instant} {u : Unit} :
    Returns (insertCorrelatedProgressEvent executionId now) s u s' ↔
      ∃ e correlationId, s.executions.find? (fun e ↦ decide (e.id = executionId)) = some e ∧
        requestCorrelation e.scanId s.inboxMessages = some correlationId ∧
        s' = s.withProgressEvent e correlationId now := by
  simp only [insertCorrelatedProgressEvent, returns_bind, returns_get, returns_found,
    returns_insertProgressEvent, exists_and_left, exists_eq_left, and_assoc,
    Option.bind_eq_some_iff]
  constructor
  · rintro ⟨correlationId, ⟨e, he, hcorrelation⟩, e', he', rfl⟩
    rw [he, Option.some.injEq] at he'
    subst he'
    exact ⟨e, he, correlationId, hcorrelation, rfl⟩
  · rintro ⟨e, he, correlationId, hcorrelation, rfl⟩
    exact ⟨correlationId, ⟨e, he, hcorrelation⟩, e, he, rfl⟩

/-! ### Commands -/

/-- The inbox row of a command. -/
def ScanCommandEnvelope.inboxRow (env : Env) (envelope : ScanCommandEnvelope)
    (outcome : InboxOutcome) (receivedAt : Instant) : InboxMessage where
  messageId := envelope.messageId
  aggregateId := envelope.aggregateId
  aggregateVersion := envelope.aggregateVersion
  messageType := .scanRequested
  correlationId := envelope.correlationId
  payloadSHA256 := canonicalHash env (envelope.payload.json env)
  outcome := outcome
  receivedAt := receivedAt

/-- The inbox row of a cancellation. -/
def ScanCancelCommandEnvelope.inboxRow (env : Env) (envelope : ScanCancelCommandEnvelope)
    (outcome : InboxOutcome) (receivedAt : Instant) : InboxMessage where
  messageId := envelope.messageId
  aggregateId := envelope.aggregateId
  aggregateVersion := envelope.aggregateVersion
  messageType := .scanCancelRequested
  correlationId := envelope.correlationId
  payloadSHA256 := canonicalHash env (envelope.payload.json env)
  outcome := outcome
  receivedAt := receivedAt

/-- The store after a command started an execution. -/
def Store.started (env : Env) (now receivedAt : Instant) (envelope : ScanCommandEnvelope)
    (normalizedURL : Utf8.ByteString) (s : Store) : Store :=
  { s with
    executions := s.executions ++ [newExecution env now envelope normalizedURL s.nextUuid]
    pages := s.pages ++ [seedPage env now envelope normalizedURL s.nextUuid (s.nextUuid + 1)]
    hostLeases := s.hostLeases ++
      missingSlots env (env.lowerCase envelope.payload.targetHostname) now s.hostLeases
    inboxMessages := s.inboxMessages ++ [envelope.inboxRow env .applied receivedAt]
    nextUuid := s.nextUuid + 2 }

/-- A command is a duplicate, or is stale for its execution, or starts an execution. -/
theorem acceptCommand_cases {now receivedAt : Instant} {envelope : ScanCommandEnvelope}
    {duplicate : Bool} (h : Returns (acceptCommand env now receivedAt envelope) s duplicate s') :
    envelope.validate env = [] ∧
      ((∃ message ∈ s.inboxMessages, message.messageId = envelope.messageId ∧ s' = s) ∨
      (∀ message ∈ s.inboxMessages, message.messageId ≠ envelope.messageId) ∧
        ((∃ e ∈ s.executions, e.scanId = envelope.payload.scanId ∧
            e.commandVersion = envelope.aggregateVersion ∧
            s' = { s with
              inboxMessages := s.inboxMessages ++ [envelope.inboxRow env .ignoredStale receivedAt] })
          ∨ (∀ e ∈ s.executions, e.scanId ≠ envelope.payload.scanId) ∧
            ∃ normalizedURL, env.normalizeURL envelope.payload.targetURL = some normalizedURL ∧
              s' = s.started env now receivedAt envelope normalizedURL)) := by
  simp only [acceptCommand, returns_bind, returns_require, returns_found, returns_get,
    exists_and_left, exists_eq_left, exists_const, and_assoc] at h
  obtain ⟨hvalid, normalizedURL, hurl, h⟩ := h
  refine ⟨hvalid, ?_⟩
  split at h
  · next message hmessage =>
    simp only [returns_bind, returns_require, returns_pure, and_assoc, exists_and_left,
      exists_eq_left, exists_const] at h
    obtain ⟨-, -, rfl⟩ := h
    exact .inl ⟨message, List.mem_of_find?_eq_some hmessage,
      by simpa using List.find?_some hmessage, rfl⟩
  · next hmessage =>
    refine .inr ⟨by simpa using hmessage, ?_⟩
    split at h
    · next e he =>
      simp only [returns_bind, returns_require, returns_insertInbox, returns_pure, and_assoc,
        exists_and_left, exists_eq_left, exists_const] at h
      obtain ⟨hversion, -, -, rfl⟩ := h
      exact .inl ⟨e, List.mem_of_find?_eq_some he, by simpa using List.find?_some he, hversion,
        rfl⟩
    · next he =>
      simp only [returns_bind, returns_newUuid, returns_modify, returns_insertInbox, returns_pure,
        and_assoc, exists_and_left, exists_eq_left, exists_const] at h
      obtain ⟨-, rfl⟩ := h
      exact .inr ⟨by simpa using he, normalizedURL, hurl, rfl⟩

/-- The store after a cancellation, before its progress event. -/
def Store.cancelled (version : ℤ) (now : Instant) (e : Execution) (s : Store) : Store :=
  let candidates := s.pages.filter (Page.isCancellable e.id)
  { s with
    executions := Table.update (fun e' ↦ decide (e'.id = e.id))
      (Execution.cancel version (candidates.countP fun page ↦ decide (page.status = .queued))
        (candidates.countP fun page ↦ decide (page.status = .leased)) now) s.executions
    pages := Table.update (Page.isCancellable e.id) Page.cancel s.pages
    hostLeases := Table.update (HostLease.isHeldBy candidates) HostLease.release s.hostLeases }

/-- The store with one more inbox row. -/
def Store.withInbox (s : Store) (message : InboxMessage) : Store :=
  { s with inboxMessages := s.inboxMessages ++ [message] }

/-- A cancellation is a duplicate, or is stale for its execution, or cancels it. -/
theorem acceptCancellation_cases {now receivedAt : Instant} {envelope : ScanCancelCommandEnvelope}
    {duplicate : Bool}
    (h : Returns (acceptCancellation env now receivedAt envelope) s duplicate s') :
    envelope.validate = [] ∧
      ((∃ message ∈ s.inboxMessages, message.messageId = envelope.messageId ∧ s' = s) ∨
      (∀ message ∈ s.inboxMessages, message.messageId ≠ envelope.messageId) ∧
        ∃ e ∈ s.executions, e.scanId = envelope.payload.scanId ∧
          e.ownerId = envelope.payload.ownerId ∧
          ((envelope.aggregateVersion ≤ e.commandVersion ∨ e.status.isTerminal = true) ∧
            s' = s.withInbox (envelope.inboxRow env .ignoredStale receivedAt) ∨
          e.commandVersion < envelope.aggregateVersion ∧ e.status.isTerminal = false ∧
            ∃ e', (s.cancelled envelope.aggregateVersion now e).executions.find?
                (fun e' ↦ decide (e'.id = e.id)) = some e' ∧
              s' = ((s.cancelled envelope.aggregateVersion now e).withProgressEvent e'
                envelope.correlationId now).withInbox
                  (envelope.inboxRow env .applied receivedAt))) := by
  simp only [acceptCancellation, returns_bind, returns_require, returns_get, exists_and_left,
    exists_eq_left, exists_const, and_assoc] at h
  obtain ⟨hvalid, h⟩ := h
  refine ⟨hvalid, ?_⟩
  split at h
  · next message hmessage =>
    simp only [returns_bind, returns_require, returns_pure, and_assoc, exists_and_left,
      exists_eq_left, exists_const] at h
    obtain ⟨-, -, rfl⟩ := h
    exact .inl ⟨message, List.mem_of_find?_eq_some hmessage,
      by simpa using List.find?_some hmessage, rfl⟩
  · next hmessage =>
    simp only [returns_bind, returns_found, and_assoc, exists_and_left, exists_eq_left] at h
    obtain ⟨e, he, h⟩ := h
    have hkey := List.find?_some he
    simp only [Bool.and_eq_true, decide_eq_true_eq] at hkey
    refine .inr ⟨by simpa using hmessage, e, List.mem_of_find?_eq_some he, hkey.1, hkey.2, ?_⟩
    split_ifs at h with hstale
    · simp only [returns_bind, returns_insertInbox, returns_pure, exists_and_left, exists_eq_left,
        exists_const] at h
      exact .inl ⟨hstale, h.2⟩
    · simp only [returns_bind, returns_updatePages, returns_updateHostLeases, returns_require,
        returns_updateExecution, returns_insertProgressEvent, returns_insertInbox, returns_pure,
        and_assoc, exists_and_left, exists_eq_left, exists_const] at h
      obtain ⟨-, s₁, ⟨e', he', rfl⟩, -, rfl⟩ := h
      rw [not_or, not_le, Bool.not_eq_true] at hstale
      exact .inr ⟨hstale.1, hstale.2, e', he', rfl⟩

/-! ### Page leases -/

/-- The store after a claim, before its progress event. -/
def Store.claimed (now leaseUntil nextAllowedAt : Instant) (lease : PageLease)
    (targetHostname : Utf8.ByteString) (s : Store) : Store :=
  { s with
    executions := Table.update (fun e ↦ decide (e.id = lease.executionId)) (Execution.claim now)
      s.executions
    pages := Table.update
      (fun page ↦ page.hasKey lease.retentionMonth lease.pageId && decide (page.status = .queued))
      (Page.claim lease leaseUntil) s.pages
    hostLeases := Table.update
      (fun host ↦ decide (host.hostname = targetHostname) &&
        host.isSlot lease.hostname lease.hostSlotNo)
      (HostLease.claim lease leaseUntil nextAllowedAt) s.hostLeases }

/-- The rows of a claim and what their queries checked. -/
theorem claimRows_spec {now : Instant} {locks : ClaimLocks} {e : Execution} {host : HostLease}
    {page : Page} {correlationId : Uuid}
    (h : claimRows env now locks s = some (e, host, page, correlationId)) :
    e ∈ s.executions ∧ host ∈ s.hostLeases ∧ page ∈ s.pages ∧
      (e.status = .queued ∨ e.status = .running) ∧ e.leasedCount < e.maxConcurrency ∧
      now < e.deadline ∧ host.hostname = e.targetHostname ∧ host.isFree env now = true ∧
      page.isOf e = true ∧ page.isAvailable now = true ∧
      requestCorrelation e.scanId s.inboxMessages = some correlationId := by
  simp only [claimRows, Option.bind_eq_bind, Option.bind_eq_some_iff, Option.pure_def,
    Option.some.injEq, Prod.mk.injEq] at h
  obtain ⟨e', he, host', hhost, page', hpage, correlationId', hcorrelation, rfl, rfl, rfl, rfl⟩ := h
  have he := Table.firstBy_mem he
  have hhost := Table.firstBy_mem hhost
  have hpage := Table.firstBy_mem hpage
  simp only [List.mem_filter, Bool.and_eq_true, decide_eq_true_eq, Execution.isClaimable,
    Bool.or_eq_true] at he hhost hpage
  exact ⟨he.1, hhost.1, hpage.1, he.2.1.1.1.1, he.2.1.1.1.2, he.2.1.1.2, hhost.2.1.1, hhost.2.1.2,
    hpage.2.1.1, hpage.2.1.2, hcorrelation⟩

/-- A claim finds nothing, or leases a page and a host slot. -/
theorem dispatchClaim_cases {now leaseUntil : Instant} {hostDelay : Duration} {locks : ClaimLocks}
    {result : Option PageLease}
    (h : Returns (dispatchClaim env now leaseUntil hostDelay locks) s result s') :
    (result = none ∧ s' = { s with nextUuid := s.nextUuid + 1 }) ∨
      ∃ e host page correlationId e', claimRows env now locks s = some (e, host, page, correlationId)
        ∧ result = some (newLease s.nextUuid e host page correlationId) ∧
        (s.hostLeases.countP fun host' ↦ decide (host'.hostname = e.targetHostname) &&
          host'.isSlot page.hostname host.slotNo) = 1 ∧
        (s.claimed now leaseUntil (now + hostDelay) (newLease s.nextUuid e host page correlationId)
          e.targetHostname).executions.find? (fun e' ↦ decide (e'.id = page.executionId)) = some e' ∧
        s' = Store.withProgressEvent { s.claimed now leaseUntil (now + hostDelay)
          (newLease s.nextUuid e host page correlationId) e.targetHostname with
            nextUuid := s.nextUuid + 1 } e' correlationId now := by
  simp only [dispatchClaim, claimPage, returns_bind, returns_newUuid, returns_get, and_assoc,
    exists_and_left, exists_eq_left] at h
  have hrows : claimRows env now locks { s with nextUuid := s.nextUuid + 1 } =
      claimRows env now locks s := rfl
  rw [hrows] at h
  split at h
  · simp only [returns_pure] at h
    exact .inl h
  · next e host page correlationId heq =>
    simp only [returns_bind, returns_updateHostLeases, returns_require, returns_updatePages,
      returns_updateExecution, returns_insertProgressEvent, returns_pure, and_assoc,
      exists_and_left, exists_eq_left, exists_const] at h
    obtain ⟨hhost, s₁, ⟨e', he', rfl⟩, rfl, rfl⟩ := h
    exact .inr ⟨e, host, page, correlationId, e', heq, rfl, hhost, he', rfl⟩

/-- The store after a heartbeat of a lease. -/
def Store.extended (leaseUntil : Instant) (lease : PageLease) (s : Store) : Store :=
  { s with
    pages := Table.update (Page.isLeasedUnder lease)
      (fun page ↦ { page with leaseExpiresAt := some leaseUntil }) s.pages
    hostLeases := Table.update (HostLease.isLeasedUnder lease)
      (fun host ↦ { host with leaseExpiresAt := some leaseUntil }) s.hostLeases }

/-- A heartbeat moves the expiry of a lease that is still held. -/
theorem extendPageLease_cases {leaseUntil : Instant} {lease : PageLease} {u : Unit}
    (h : Returns (extendPageLease leaseUntil lease) s u s') :
    s.pages.countP (Page.isLeasedUnder lease) = 1 ∧
      s.hostLeases.countP (HostLease.isLeasedUnder lease) = 1 ∧
      s' = s.extended leaseUntil lease := by
  simp only [extendPageLease, returns_bind, returns_updatePages, returns_updateHostLeases,
    returns_require, and_assoc, exists_and_left, exists_eq_left, exists_const] at h
  exact h

/-! ### Page results -/

/-- The normalised URL of a page that the link may lead to. -/
def followedURL (env : Env) (lease : PageLease) (link : DiscoveredLink) : Option Utf8.ByteString :=
  if link.isInternal && link.isFollowable then
    (env.normalizeURL link.targetURL).filter fun url ↦ env.isHTTPURLInScope url lease.hostname
  else none

/-- Whether a page of the lease's execution has the URL. -/
def isKnown (lease : PageLease) (pages : List Page) (url : Utf8.ByteString) : Bool :=
  pages.any fun page ↦ decide (page.retentionMonth = lease.retentionMonth) &&
    decide (page.executionId = lease.executionId) && decide (page.normalizedURL = url)

/-- The distinct URLs in order of first occurrence that are not among `seen` and not known. -/
def unseenURLs (lease : PageLease) (pages : List Page) (seen urls : List Utf8.ByteString) :
    List Utf8.ByteString :=
  ((urls.filter fun url ↦ !seen.contains url).eraseDups).filter fun url ↦ !isKnown lease pages url

theorem unseenURLs_nil (lease : PageLease) (pages : List Page) (seen : List Utf8.ByteString) :
    unseenURLs lease pages seen [] = [] := rfl

theorem unseenURLs_of_seen {lease : PageLease} {pages : List Page} {seen urls : List Utf8.ByteString}
    {url : Utf8.ByteString} (h : seen.contains url = true) :
    unseenURLs lease pages seen (url :: urls) = unseenURLs lease pages seen urls := by
  unfold unseenURLs
  rw [List.filter_cons_of_neg (by rw [h]; decide)]

theorem filter_unseen_cons (seen urls : List Utf8.ByteString) (url : Utf8.ByteString) :
    ((urls.filter fun other ↦ !seen.contains other).filter fun other ↦ !other == url) =
      urls.filter fun other ↦ !(url :: seen).contains other := by
  rw [List.filter_filter]
  refine List.filter_congr fun other _ ↦ ?_
  rw [List.contains_cons, Bool.not_or]

/-- A new URL comes first, and is not met again. -/
theorem unseenURLs_cons {lease : PageLease} {pages : List Page} {seen urls : List Utf8.ByteString}
    {url : Utf8.ByteString} (h : seen.contains url = false) :
    unseenURLs lease pages seen (url :: urls) =
      if isKnown lease pages url then unseenURLs lease pages (url :: seen) urls
      else url :: unseenURLs lease pages (url :: seen) urls := by
  unfold unseenURLs
  rw [List.filter_cons_of_pos (by rw [h]; rfl), List.eraseDups_cons, filter_unseen_cons,
    List.filter_cons]
  cases isKnown lease pages url with
  | false => rfl
  | true => rfl

/-- A page whose URL was met does not change which URLs are left. -/
theorem unseenURLs_concat {lease : PageLease} {pages : List Page} {seen urls : List Utf8.ByteString}
    {page : Page} (h : page.normalizedURL ∈ seen) :
    unseenURLs lease (pages ++ [page]) seen urls = unseenURLs lease pages seen urls := by
  refine List.filter_congr fun url hurl ↦ ?_
  have hunseen := List.of_mem_filter (List.mem_eraseDups.1 hurl)
  have hne : page.normalizedURL ≠ url := by
    rintro rfl
    rw [List.contains_iff_mem.2 h] at hunseen
    exact Bool.false_ne_true hunseen
  unfold isKnown
  rw [List.any_append, List.any_cons, decide_eq_false hne]
  simp only [Bool.and_false, List.any_nil, Bool.or_false]

/-- The loop over the links adds the first new URLs, as many as remain. -/
theorem insertLinks_urls {lease : PageLease} {remaining : ℤ} {now : Instant}
    {links : List DiscoveredLink} {inserted n : ℕ} {seen : List Utf8.ByteString}
    (h : Returns (insertLinks env lease remaining now links inserted seen) s n s') :
    s'.pages.map Page.normalizedURL = s.pages.map Page.normalizedURL ++
      (unseenURLs lease s.pages seen (links.filterMap (followedURL env lease))).take
        (remaining - inserted).toNat := by
  induction links generalizing inserted seen s with
  | nil =>
    simp only [insertLinks, returns_pure] at h
    rw [h.2, List.filterMap_nil, unseenURLs_nil, List.take_nil, List.append_nil]
  | cons link links ih =>
    rw [insertLinks] at h
    split_ifs at h with hskip
    · rw [ih h]
      rcases hskip with hfull | hskip
      · rw [Int.toNat_of_nonpos (by omega), List.take_zero, List.take_zero]
      · have hnone : followedURL env lease link = none := by
          unfold followedURL
          rw [if_neg]
          rcases hskip with hskip | hskip <;> simp [hskip]
        rw [List.filterMap_cons_none hnone]
    · rw [not_or, not_or, Bool.not_eq_false, Bool.not_eq_false] at hskip
      obtain ⟨hroom, hinternal, hfollowable⟩ := hskip
      split at h
      · next hnormalized =>
        have hnone : followedURL env lease link = none := by
          unfold followedURL
          rw [hnormalized, Option.filter_none, ite_self]
        rw [ih h, List.filterMap_cons_none hnone]
      · next normalized hnormalized =>
        by_cases hscope : env.isHTTPURLInScope normalized lease.hostname = true
        · have hsome : followedURL env lease link = some normalized := by
            unfold followedURL
            rw [hinternal, hfollowable, hnormalized, Option.filter_some, if_pos hscope]
            rfl
          rw [List.filterMap_cons_some hsome]
          by_cases hseen : seen.contains normalized = true
          · rw [if_pos (.inr hseen)] at h
            rw [ih h, unseenURLs_of_seen hseen]
          · rw [if_neg (by rw [hscope]; simpa using hseen)] at h
            rw [unseenURLs_cons (Bool.eq_false_iff.2 hseen)]
            simp only [returns_bind, returns_newUuid, insertPage, returns_modifyGet, and_assoc,
              exists_and_left, exists_eq_left] at h
            obtain ⟨rows, s₁, hrows, h⟩ := h
            split_ifs at hrows with hconflict
            · obtain ⟨rfl, rfl⟩ := Prod.mk.inj hrows
              change isKnown lease s.pages normalized = true at hconflict
              have hrest := ih h
              rw [if_pos hconflict]
              exact hrest
            · obtain ⟨rfl, rfl⟩ := Prod.mk.inj hrows
              change ¬ isKnown lease s.pages normalized = true at hconflict
              have hroom' : (remaining - inserted).toNat =
                  (remaining - ((inserted + 1 : ℕ) : ℤ)).toNat + 1 := by
                omega
              have hkeep : ∀ urls, unseenURLs lease
                  (s.pages ++ [discoveredPage lease normalized now s.nextUuid])
                  (normalized :: seen) urls = unseenURLs lease s.pages (normalized :: seen) urls :=
                fun urls ↦ unseenURLs_concat (List.mem_cons_self ..)
              have hrest := ih h
              dsimp only at hrest
              rw [hkeep, List.map_append, List.append_assoc] at hrest
              rw [if_neg hconflict, hroom', List.take_succ_cons]
              exact hrest
        · have hnone : followedURL env lease link = none := by
            unfold followedURL
            rw [hnormalized, Option.filter_some, if_neg hscope, ite_self]
          rw [if_pos (.inl (Bool.eq_false_iff.2 hscope))] at h
          rw [ih h, List.filterMap_cons_none hnone]

/-- The URLs of the pages that the links of a page result add. -/
def discoveredURLs (env : Env) (lease : PageLease) (links : List DiscoveredLink) (s : Store) :
    List Utf8.ByteString :=
  if (lease.discoveryDepth : ℤ) ≥ lease.maxDepth then []
  else
    match s.executions.find? fun e ↦ decide (e.id = lease.executionId) with
    | some e =>
      (unseenURLs lease s.pages [] (links.filterMap (followedURL env lease))).take
        (lease.maxPages - e.discoveredCount).toNat
    | none => []

/-- Discovery adds exactly these URLs. -/
theorem insertDiscoveredPages_urls {lease : PageLease} {links : List DiscoveredLink}
    {now : Instant} {n : ℕ} (h : Returns (insertDiscoveredPages env lease links now) s n s') :
    s'.pages.map Page.normalizedURL =
      s.pages.map Page.normalizedURL ++ discoveredURLs env lease links s := by
  unfold insertDiscoveredPages at h
  unfold discoveredURLs
  split_ifs at h ⊢ with hdepth
  · rw [(returns_pure.1 h).2, List.append_nil]
  · simp only [returns_bind, returns_get, returns_found, and_assoc, exists_and_left,
      exists_eq_left] at h
    obtain ⟨e, he, h⟩ := h
    rw [he]
    dsimp only
    split_ifs at h with hremaining
    · rw [(returns_pure.1 h).2, Int.toNat_of_nonpos hremaining, List.take_zero, List.append_nil]
    · rw [insertLinks_urls h, Nat.cast_zero, sub_zero]

/-- The URLs that are left do not depend on the columns of pages that change. -/
theorem unseenURLs_update {lease : PageLease} (sel : Page → Bool) (set : Page → Page)
    {pages : List Page} (hset : ∀ page, (set page).retentionMonth = page.retentionMonth ∧
      (set page).executionId = page.executionId ∧
      (set page).normalizedURL = page.normalizedURL) (seen urls : List Utf8.ByteString) :
    unseenURLs lease (Table.update sel set pages) seen urls =
      unseenURLs lease pages seen urls := by
  refine List.filter_congr fun url _ ↦ congrArg _ ?_
  unfold isKnown Table.update
  rw [List.any_map]
  refine congrArg (fun p ↦ pages.any p) (funext fun page ↦ ?_)
  dsimp only [Function.comp_apply]
  split_ifs
  · rw [(hset page).1, (hset page).2.1, (hset page).2.2]
  · rfl

/-- The pages that a page result adds: queued pages of the lease's execution with fresh,
distinct identifiers. -/
structure Discovered (lease : PageLease) (now : Instant) (low high : Uuid) (added : List Page) :
    Prop where
  le : low ≤ high
  nodup : (added.map Page.id).Nodup
  fresh : ∀ page ∈ added, low ≤ page.id ∧ page.id < high
  shape : ∀ page ∈ added, ∃ normalizedURL, page = discoveredPage lease normalizedURL now page.id

/-- Nothing was discovered. -/
theorem Discovered.nil (lease : PageLease) (now : Instant) (low : Uuid) :
    Discovered lease now low low [] :=
  ⟨le_refl low, List.nodup_nil, by simp, by simp⟩

/-- The loop over the links appends discovered pages and counts them. -/
theorem insertLinks_spec {lease : PageLease} {remaining : ℤ} {now : Instant}
    {links : List DiscoveredLink} {inserted n : ℕ} {seen : List Utf8.ByteString} {s s' : Store}
    (h : Returns (insertLinks env lease remaining now links inserted seen) s n s') :
    ∃ added, s' = { s with pages := s.pages ++ added, nextUuid := s'.nextUuid } ∧
      n = inserted + added.length ∧ Discovered lease now s.nextUuid s'.nextUuid added ∧
      ((inserted : ℤ) ≤ remaining → (n : ℤ) ≤ remaining) := by
  induction links generalizing inserted seen s with
  | nil =>
    simp only [insertLinks, returns_pure] at h
    obtain ⟨rfl, rfl⟩ := h
    exact ⟨[], by simp, by simp, Discovered.nil lease now _, fun h ↦ h⟩
  | cons link links ih =>
    rw [insertLinks] at h
    split_ifs at h with hskip
    · exact ih h
    · split at h
      · exact ih h
      · next normalized _ =>
        split_ifs at h with hseen
        · exact ih h
        · simp only [returns_bind, returns_newUuid, insertPage, returns_modifyGet, and_assoc,
            exists_and_left, exists_eq_left] at h
          obtain ⟨rows, s₁, hrows, h⟩ := h
          rw [not_or, not_or, not_le] at hskip
          split_ifs at hrows with hconflict
          · obtain ⟨rfl, rfl⟩ := Prod.mk.inj hrows
            obtain ⟨added, hs', hn, hadded, hbound⟩ := ih h
            refine ⟨added, hs', hn, ⟨?_, hadded.nodup, ?_, hadded.shape⟩, hbound⟩
            · exact (Nat.le_succ _).trans hadded.le
            · intro page hpage
              exact ⟨(Nat.le_succ _).trans (hadded.fresh page hpage).1, (hadded.fresh page hpage).2⟩
          · obtain ⟨rfl, rfl⟩ := Prod.mk.inj hrows
            obtain ⟨added, hs', hn, hadded, hbound⟩ := ih h
            refine ⟨discoveredPage lease normalized now s.nextUuid :: added, ?_, ?_, ⟨?_, ?_, ?_, ?_⟩,
              ?_⟩
            · rw [hs']
              simp
            · rw [hn, List.length_cons]
              omega
            · exact (Nat.le_succ _).trans hadded.le
            · refine List.nodup_cons.2 ⟨?_, hadded.nodup⟩
              intro hmem
              obtain ⟨page, hpage, hid⟩ := List.mem_map.1 hmem
              have hlow := (hadded.fresh page hpage).1
              rw [hid] at hlow
              exact Nat.not_succ_le_self _ hlow
            · intro page hpage
              rcases List.mem_cons.1 hpage with rfl | hpage
              · exact ⟨le_refl _, hadded.le⟩
              · exact ⟨(Nat.le_succ _).trans (hadded.fresh page hpage).1,
                  (hadded.fresh page hpage).2⟩
            · intro page hpage
              rcases List.mem_cons.1 hpage with rfl | hpage
              · exact ⟨normalized, rfl⟩
              · exact hadded.shape page hpage
            · intro _
              refine hbound ?_
              have hlt : (inserted : ℤ) < remaining := hskip.1
              push_cast
              omega

/-- Discovery appends pages to the lease's execution, within its page limit. -/
theorem insertDiscoveredPages_spec {lease : PageLease} {links : List DiscoveredLink}
    {now : Instant} {n : ℕ} {s s' : Store}
    (h : Returns (insertDiscoveredPages env lease links now) s n s') :
    ∃ added, s' = { s with pages := s.pages ++ added, nextUuid := s'.nextUuid } ∧
      n = added.length ∧ Discovered lease now s.nextUuid s'.nextUuid added ∧
      (added ≠ [] → ∃ e, s.executions.find? (fun e ↦ decide (e.id = lease.executionId)) = some e ∧
        e.discoveredCount + n ≤ lease.maxPages) := by
  unfold insertDiscoveredPages at h
  split_ifs at h with hdepth
  · simp only [returns_pure] at h
    obtain ⟨rfl, rfl⟩ := h
    exact ⟨[], by simp, rfl, Discovered.nil lease now _, fun hne ↦ absurd rfl hne⟩
  · simp only [returns_bind, returns_get, returns_found, and_assoc, exists_and_left,
      exists_eq_left] at h
    obtain ⟨e, he, h⟩ := h
    split_ifs at h with hremaining
    · simp only [returns_pure] at h
      obtain ⟨rfl, rfl⟩ := h
      exact ⟨[], by simp, rfl, Discovered.nil lease now _, fun hne ↦ absurd rfl hne⟩
    · obtain ⟨added, hs', hn, hadded, hbound⟩ := insertLinks_spec h
      refine ⟨added, hs', by simpa using hn, hadded, fun _ ↦ ⟨e, he, ?_⟩⟩
      have := hbound (by push_cast; omega)
      omega

/-- The store after a page was requeued, before its progress event. -/
def Store.requeued (now : Instant) (lease : PageLease) (attemptCount : ℕ) (s : Store) : Store :=
  { s with
    executions := Table.update (fun e ↦ decide (e.id = lease.executionId)) (Execution.requeue now)
      s.executions
    pages := Table.update (Page.hasKey lease.retentionMonth lease.pageId)
      (Page.requeue (now + pageRetryDelay attemptCount lease.pageId)) s.pages
    hostLeases := Table.update (HostLease.isLeasedUnder lease) HostLease.release s.hostLeases }

/-- The analytics row of a page result. -/
def outboxRow (env : Env) (now : Instant) (lease : PageLease) (result : PageResult)
    (resultVersion : ℕ) (payload : Utf8.ByteString) (id : Uuid) : AnalyticsOutboxRow where
  id := id
  retentionMonth := lease.retentionMonth
  executionId := lease.executionId
  ownerId := lease.ownerId
  pageId := lease.pageId
  resultVersion := resultVersion
  status := .pending
  payload := some payload
  payloadSHA256 := env.sha256 ((analyticsPayload lease result resultVersion).marshal env)
  availableAt := now
  createdAt := now

/-- The store after a page result was staged, before its progress event. -/
def Store.staged (env : Env) (now : Instant) (lease : PageLease) (result : PageResult)
    (resultVersion : ℕ) (payload : Utf8.ByteString) (added : List Page) (outboxId : Uuid)
    (s : Store) : Store :=
  { s with
    executions := Table.update (fun e ↦ decide (e.id = lease.executionId))
      (Execution.stage added.length now) s.executions
    pages := Table.update (Page.hasKey lease.retentionMonth lease.pageId)
      (Page.stage result.terminalStatus) s.pages ++ added
    hostLeases := Table.update (HostLease.isLeasedUnder lease) HostLease.release s.hostLeases
    analyticsOutbox := s.analyticsOutbox ++
      [outboxRow env now lease result resultVersion payload outboxId]
    nextUuid := outboxId + 1 }

/-- The page of a lease that is still held. -/
theorem isLeasedUnder_iff {lease : PageLease} {page : Page} :
    page.isLeasedUnder lease = true ↔
      page.retentionMonth = lease.retentionMonth ∧ page.id = lease.pageId ∧
        page.status = .leased ∧ page.leaseOwner = some lease.leaseOwner ∧
        page.leaseGeneration = lease.leaseGeneration := by
  simp only [Page.isLeasedUnder, Page.hasKey, Bool.and_eq_true, decide_eq_true_eq, and_assoc]

/-- A page result requeues its page, or stages its result and adds the pages it discovered. -/
theorem commitPageResult_cases {now : Instant} {lease : PageLease} {result : PageResult} {u : Unit}
    (h : Returns (commitPageResult env now lease result) s u s') :
    ∃ page ∈ s.pages, page.isLeasedUnder lease = true ∧
      s.hostLeases.countP (HostLease.isLeasedUnder lease) = 1 ∧
      ((shouldRetryPage env result page.attemptCount = true ∧
        ∃ e, (s.requeued now lease page.attemptCount).executions.find?
            (fun e ↦ decide (e.id = lease.executionId)) = some e ∧
          s' = (s.requeued now lease page.attemptCount).withProgressEvent e lease.correlationId now)
      ∨ (shouldRetryPage env result page.attemptCount = false ∧
        ∃ added payload outboxId e,
          env.jsonb ((analyticsPayload lease result (page.resultVersion + 1)).marshal env) =
            some payload ∧
          Discovered lease now s.nextUuid outboxId added ∧
          added.map Page.normalizedURL = discoveredURLs env lease result.links.elements s ∧
          (added ≠ [] → ∃ e, s.executions.find? (fun e ↦ decide (e.id = lease.executionId)) = some e ∧
            e.discoveredCount + added.length ≤ lease.maxPages) ∧
          (s.staged env now lease result (page.resultVersion + 1) payload added
            outboxId).executions.find? (fun e ↦ decide (e.id = lease.executionId)) = some e ∧
          s' = (s.staged env now lease result (page.resultVersion + 1) payload added
            outboxId).withProgressEvent e lease.correlationId now)) := by
  simp only [commitPageResult, returns_bind, returns_get, returns_found, and_assoc,
    exists_and_left, exists_eq_left] at h
  obtain ⟨page, hpage, h⟩ := h
  have hleased := List.find?_some hpage
  have hmem := List.mem_of_find?_eq_some hpage
  split_ifs at h with hretry
  · simp only [commitRetry, returns_bind, returns_updatePages, returns_updateHostLeases,
      returns_require, returns_updateExecution, returns_insertProgressEvent, and_assoc,
      exists_and_left, exists_eq_left, exists_const] at h
    obtain ⟨hhost, e, he, rfl⟩ := h
    exact ⟨page, hmem, hleased, hhost, .inl ⟨hretry, e, he, rfl⟩⟩
  · simp only [commitResult, returns_bind, returns_updatePages, returns_updateHostLeases,
      returns_require, returns_found, returns_newUuid, returns_modify, returns_updateExecution,
      returns_insertProgressEvent, and_assoc, exists_and_left, exists_eq_left,
      exists_const] at h
    obtain ⟨hhost, n, s₁, hdiscovered, -, payload, hpayload, e, he, rfl⟩ := h
    obtain ⟨added, hs₁, rfl, hadded, hlimit⟩ := insertDiscoveredPages_spec hdiscovered
    have hurls : added.map Page.normalizedURL =
        discoveredURLs env lease result.links.elements s := by
      have hpages := insertDiscoveredPages_urls hdiscovered
      rw [hs₁, List.map_append, List.append_cancel_left_eq] at hpages
      rw [hpages]
      unfold discoveredURLs
      have hkeep : ∀ urls, unseenURLs lease (Table.update
          (Page.hasKey lease.retentionMonth lease.pageId) (Page.stage result.terminalStatus)
          s.pages) [] urls = unseenURLs lease s.pages [] urls :=
        unseenURLs_update _ (Page.stage result.terminalStatus) (fun _ ↦ ⟨rfl, rfl, rfl⟩) []
      dsimp only
      rw [hkeep]
    rw [Bool.not_eq_true] at hretry
    refine ⟨page, hmem, hleased, hhost, .inr ⟨hretry, added, payload, s₁.nextUuid, e, hpayload,
      hadded, hurls, hlimit, ?_⟩⟩
    generalize hid : s₁.nextUuid = outboxId at hs₁ he hadded ⊢
    subst hs₁
    exact ⟨he, rfl⟩

/-! ### Analytics delivery -/

/-- A claim takes due rows only. -/
theorem mem_claimIds {α : Type} {id : α → Uuid} {isDue : α → Bool}
    {availableAt createdAt : α → Instant} {limit : ℕ} {locked : List Uuid} {rows : List α}
    {rowId : Uuid}
    (h : rowId ∈ claimIds id isDue availableAt createdAt limit locked rows) :
    ∃ row ∈ rows, id row = rowId ∧ isDue row = true := by
  obtain ⟨row, hrow, rfl⟩ := List.mem_map.1 h
  have hmem := (List.perm_insertionSort _ _).mem_iff.1 (List.mem_of_mem_take hrow)
  obtain ⟨hrow, hdue⟩ := List.mem_filter.1 hmem
  exact ⟨row, hrow, rfl, (Bool.and_eq_true_iff.1 hdue).1⟩

/-- A claim of analytics marks the rows it takes and reads their batches. -/
theorem claimAnalytics_cases {now leaseUntil : Instant} {locked : List Uuid} {workerId : Uuid}
    {limit : ℕ} {batches : List AnalyticsBatch}
    (h : Returns (claimAnalytics now leaseUntil locked workerId limit) s batches s') :
    ∃ ids : List Uuid, s' = { s with
        analyticsOutbox := Table.update (fun row ↦ decide (row.id ∈ ids))
          (AnalyticsOutboxRow.claim workerId leaseUntil) s.analyticsOutbox } ∧
      batches = (s'.analyticsOutbox.filter fun row ↦ decide (row.id ∈ ids)).map
        (fun row ↦ row.batch workerId) ∧
      ∀ id ∈ ids, ∃ row ∈ s.analyticsOutbox, row.id = id ∧ row.status ≠ .delivered := by
  simp only [claimAnalytics, returns_bind, returns_require, returns_get,
    returns_updateAnalyticsOutbox, returns_pure, and_assoc, exists_and_left, exists_eq_left,
    exists_const] at h
  obtain ⟨-, -, rfl, rfl⟩ := h
  refine ⟨_, rfl, rfl, fun id hid ↦ ?_⟩
  obtain ⟨row, hrow, rfl, hdue⟩ := mem_claimIds hid
  refine ⟨row, hrow, rfl, fun hdelivered ↦ ?_⟩
  simp [AnalyticsOutboxRow.isDue, hdelivered] at hdue

/-- The store after a batch was delivered, before its progress event. -/
def Store.published (now : Instant) (batch : AnalyticsBatch) (terminalStatus : TerminalStatus)
    (s : Store) : Store :=
  { s with
    executions := Table.update (fun e ↦ decide (e.id = batch.executionId)) (Execution.finish now)
      (Table.update (fun e ↦ decide (e.id = batch.executionId))
        (Execution.publish terminalStatus now) s.executions)
    pages := Table.update
      (fun page ↦ page.hasKey batch.retentionMonth batch.pageId &&
        decide (page.status = .persisting)) (Page.complete terminalStatus) s.pages
    analyticsOutbox := Table.update (AnalyticsOutboxRow.isClaimedBy batch)
      AnalyticsOutboxRow.deliver s.analyticsOutbox }

/-- A delivered batch completes its page, and its execution when nothing is left. -/
theorem completeAnalytics_cases {now : Instant} {batch : AnalyticsBatch} {u : Unit}
    (h : Returns (completeAnalytics now batch) s u s') :
    s.analyticsOutbox.countP (AnalyticsOutboxRow.isClaimedBy batch) = 1 ∧
      ∃ page ∈ s.pages, ∃ terminalStatus e correlationId,
        page.hasKey batch.retentionMonth batch.pageId = true ∧ page.status = .persisting ∧
        page.pendingTerminalStatus = some terminalStatus ∧
        (s.published now batch terminalStatus).executions.find?
          (fun e ↦ decide (e.id = batch.executionId)) = some e ∧
        requestCorrelation e.scanId s.inboxMessages = some correlationId ∧
        s' = (s.published now batch terminalStatus).withProgressEvent e correlationId now := by
  simp only [completeAnalytics, returns_bind, returns_updateAnalyticsOutbox, returns_require,
    returns_get, returns_found, returns_updatePages, returns_updateExecution,
    returns_insertCorrelatedProgressEvent, and_assoc, exists_and_left, exists_eq_left,
    exists_const] at h
  obtain ⟨hrow, terminalStatus, hpending, e, he, correlationId, hcorrelation, rfl⟩ := h
  simp only [pendingStatus, Option.bind_eq_some_iff] at hpending
  obtain ⟨page, hpage, hterminal⟩ := hpending
  have hkey := List.find?_some hpage
  simp only [Bool.and_eq_true, decide_eq_true_eq] at hkey
  exact ⟨hrow, page, List.mem_of_find?_eq_some hpage, terminalStatus, e, correlationId, hkey.1,
    hkey.2, hterminal, he, hcorrelation, rfl⟩

/-- A failed delivery of analytics changes delivery columns only. -/
theorem retryAnalytics_cases {now : Instant} {batch : AnalyticsBatch} {u : Unit}
    (h : Returns (retryAnalytics now batch) s u s') :
    s' = { s with
      analyticsOutbox := Table.update (AnalyticsOutboxRow.isClaimedBy batch) (fun row ↦
        { row with
          status := retryStatus row.deliveryAttempts
          availableAt := retryAt now row.deliveryAttempts
            (retryDelay batch.deliveryAttempts batch.id)
          leaseOwner := none
          leaseExpiresAt := none }) s.analyticsOutbox } := by
  simp only [retryAnalytics, returns_bind, returns_updateAnalyticsOutbox, returns_require,
    and_assoc, exists_and_left, exists_eq_left] at h
  exact h.2

/-! ### Event delivery -/

/-- An event row with the same event, in any state of delivery. -/
def OutboxEvent.SameEvent (event event' : OutboxEvent) : Prop :=
  ∃ status availableAt deliveryAttempts leaseOwner leaseExpiresAt,
    event' = { event with
      status := status, availableAt := availableAt, deliveryAttempts := deliveryAttempts,
      leaseOwner := leaseOwner, leaseExpiresAt := leaseExpiresAt }

/-- What a statement of the delivery does to the rows it selects: it claims due events, or delivers
or returns claimed ones. -/
inductive EventMove (events : List OutboxEvent) (sel : OutboxEvent → Bool)
    (set : OutboxEvent → OutboxEvent) : Prop
  | claimed (now : Instant)
      (hdue : ∀ event ∈ events, sel event = true → ∃ due ∈ events,
        due.messageId = event.messageId ∧ due.isDue now events = true)
      (hset : ∀ event, (set event).status = .claimed)
  | delivered (hsel : ∀ event, sel event = true → event.status = .claimed)
      (hset : ∀ event, (set event).status = .delivered)
  | returned (hsel : ∀ event, sel event = true → event.status = .claimed)
      (hset : ∀ event, (set event).status = .pending ∨ (set event).status = .dead)

/-- A claim of events marks the rows it takes and reads their messages. -/
theorem claimEvents_cases {now leaseUntil : Instant} {locked : List Uuid} {workerId : Uuid}
    {limit : ℕ} {messages : List OutboxMessage}
    (h : Returns (claimEvents now leaseUntil locked workerId limit) s messages s') :
    ∃ sel set, (∀ event : OutboxEvent, event.SameEvent (set event)) ∧
      EventMove s.outboxEvents sel set ∧
      s' = { s with outboxEvents := Table.update sel set s.outboxEvents } ∧
      ∀ message ∈ messages, ∃ due ∈ s.outboxEvents, due.messageId = message.messageId ∧
        due.isDue now s.outboxEvents = true := by
  simp only [claimEvents, returns_bind, returns_get, returns_updateOutboxEvents, returns_pure,
    and_assoc, exists_and_left, exists_eq_left] at h
  obtain ⟨rfl, rfl⟩ := h
  refine ⟨_, _, fun event ↦ ⟨_, _, _, _, _, rfl⟩,
    .claimed now (fun event _ hsel ↦ mem_claimIds (of_decide_eq_true hsel)) fun _ ↦ rfl, rfl,
    fun message hmessage ↦ ?_⟩
  obtain ⟨event, hevent, rfl⟩ := List.mem_map.1 hmessage
  exact mem_claimIds (of_decide_eq_true (List.mem_filter.1 hevent).2)

/-- Only an event that is claimed by the publisher is so. -/
theorem OutboxEvent.isClaimedBy_iff {message : OutboxMessage} {event : OutboxEvent} :
    event.isClaimedBy message = true ↔ event.messageId = message.messageId ∧
      event.status = .claimed ∧ event.leaseOwner = some message.leaseOwner := by
  simp only [OutboxEvent.isClaimedBy, Bool.and_eq_true, decide_eq_true_eq, and_assoc]

/-- The end of a delivery changes delivery columns only. -/
theorem completeEvent_cases {now : Instant} {message : OutboxMessage} {u : Unit}
    (h : Returns (completeEvent now message) s u s') :
    ∃ sel set, (∀ event : OutboxEvent, event.SameEvent (set event)) ∧
      EventMove s.outboxEvents sel set ∧
      s' = { s with outboxEvents := Table.update sel set s.outboxEvents } := by
  simp only [completeEvent, returns_bind, returns_updateOutboxEvents, returns_require,
    and_assoc, exists_and_left, exists_eq_left] at h
  refine ⟨_, _, fun event ↦ ⟨_, _, _, _, _, rfl⟩, .delivered (fun event hsel ↦ ?_) fun _ ↦ rfl, h.2⟩
  rw [Bool.and_assoc, Bool.and_eq_true] at hsel
  exact (OutboxEvent.isClaimedBy_iff.1 hsel.1).2.1

/-- The status after a failed delivery. -/
theorem retryStatus_cases (deliveryAttempts : ℕ) :
    retryStatus deliveryAttempts = .pending ∨ retryStatus deliveryAttempts = .dead := by
  unfold retryStatus
  split_ifs
  · exact .inr rfl
  · exact .inl rfl

/-- A failed delivery of an event changes delivery columns only. -/
theorem retryEvent_cases {now : Instant} {message : OutboxMessage} {u : Unit}
    (h : Returns (retryEvent now message) s u s') :
    ∃ sel set, (∀ event : OutboxEvent, event.SameEvent (set event)) ∧
      EventMove s.outboxEvents sel set ∧
      s' = { s with outboxEvents := Table.update sel set s.outboxEvents } := by
  simp only [retryEvent, returns_bind, returns_updateOutboxEvents, returns_require,
    and_assoc, exists_and_left, exists_eq_left] at h
  exact ⟨_, _, fun event ↦ ⟨_, _, _, _, _, rfl⟩,
    .returned (fun event hsel ↦ (OutboxEvent.isClaimedBy_iff.1 hsel).2.1)
      (fun event ↦ retryStatus_cases event.deliveryAttempts), h.2⟩

/-! ### Reclaiming -/

/-- The pages of an execution among the given ones. -/
def pagesOf (pages : List Page) (e : Execution) : List Page :=
  pages.filter fun page ↦ decide (page.executionId = e.id)

/-- The store after expired leases were reclaimed. -/
def Store.leasesReclaimed (clock : ReclaimClock) (locks : ReclaimLocks) (s : Store) : Store :=
  let expired := s.pages.filter (reclaimedPage clock locks s)
  { s with
    executions := Table.update (fun e ↦ !(pagesOf expired e).isEmpty)
      (fun e ↦ e.expire (pagesOf expired e).length
        ((pagesOf expired e).countP fun page ↦ decide (page.attemptCount < 3))
        ((pagesOf expired e).countP fun page ↦ decide (page.attemptCount ≥ 3)) clock.leaseUpdate)
      s.executions
    pages := Table.update (reclaimedPage clock locks s) (Page.expire clock.leaseUpdate) s.pages }

/-- The executions with a page among the given ones. -/
def idsOf (pages : List Page) (executions : List Execution) : List Uuid :=
  (executions.filter fun e ↦ !(pagesOf pages e).isEmpty).map Execution.id

/-- The store after the deadline failed queued pages. -/
def Store.deadlinesExpired (clock : ReclaimClock) (locks : ReclaimLocks) (s : Store) : Store :=
  let expired := s.pages.filter (overduePage clock locks s)
  { s with
    executions := Table.update (fun e ↦ !(pagesOf expired e).isEmpty)
      (fun e ↦ e.timeOut (pagesOf expired e).length clock.deadlineUpdate) s.executions
    pages := Table.update (overduePage clock locks s) Page.timeOut s.pages }

/-- The store after finished executions were made terminal. -/
def Store.finishedTerminalized (now : Instant) (s : Store) : Store :=
  { s with executions := Table.update Execution.isStuck (Execution.terminalize now) s.executions }

/-- The store after the leases of outbox rows were reclaimed. -/
def Store.deliveriesReclaimed (clock : ReclaimClock) (s : Store) : Store :=
  { s with
    analyticsOutbox := Table.update
      (fun row ↦ decide (row.status = .claimed) && expiredAt row.leaseExpiresAt clock.analytics)
      (fun row ↦ { row with
        status := .pending, leaseOwner := none, leaseExpiresAt := none,
        availableAt := clock.analytics }) s.analyticsOutbox
    outboxEvents := Table.update
      (fun event ↦ decide (event.status = .claimed) && expiredAt event.leaseExpiresAt clock.events)
      (fun event ↦ { event with
        status := .pending, leaseOwner := none, leaseExpiresAt := none,
        availableAt := clock.events }) s.outboxEvents }

/-- The store after expired host leases were released. -/
def Store.hostsReleased (clock : ReclaimClock) (s : Store) : Store :=
  { s with
    hostLeases := Table.update
      (fun host ↦ host.leaseOwner.isSome && expiredAt host.leaseExpiresAt clock.hosts)
      HostLease.release s.hostLeases }

theorem returns_reclaimLeases {clock : ReclaimClock} {locks : ReclaimLocks} {ids : List Uuid} :
    Returns (reclaimLeases clock locks) s ids s' ↔
      ids = idsOf (s.pages.filter (reclaimedPage clock locks s)) s.executions ∧
        s' = s.leasesReclaimed clock locks := by
  simp only [reclaimLeases, returns_bind, returns_get, returns_updatePages, returns_modify,
    returns_pure, and_assoc, exists_and_left, exists_eq_left, exists_const]
  rfl

theorem returns_expireDeadlines {clock : ReclaimClock} {locks : ReclaimLocks} {ids : List Uuid} :
    Returns (expireDeadlines clock locks) s ids s' ↔
      ids = idsOf (s.pages.filter (overduePage clock locks s)) s.executions ∧
        s' = s.deadlinesExpired clock locks := by
  simp only [expireDeadlines, returns_bind, returns_get, returns_updatePages, returns_modify,
    returns_pure, and_assoc, exists_and_left, exists_eq_left, exists_const]
  rfl

theorem returns_terminalizeFinished {now : Instant} {ids : List Uuid} :
    Returns (terminalizeFinished now) s ids s' ↔
      ids = (s.executions.filter Execution.isStuck).map Execution.id ∧
        s' = s.finishedTerminalized now := by
  simp only [terminalizeFinished, returns_bind, returns_get, returns_modify, returns_pure,
    and_assoc, exists_and_left, exists_eq_left, exists_const]
  rfl

/-- The store after the progress events of a list of executions. -/
inductive ProgressEvents (now : Instant) : List Uuid → Store → Store → Prop
  | nil (s : Store) : ProgressEvents now [] s s
  | cons {id : Uuid} {ids : List Uuid} {s s' : Store} (e : Execution) (correlationId : Uuid)
      (he : s.executions.find? (fun e ↦ decide (e.id = id)) = some e)
      (hcorrelation : requestCorrelation e.scanId s.inboxMessages = some correlationId)
      (hrest : ProgressEvents now ids (s.withProgressEvent e correlationId now) s') :
      ProgressEvents now (id :: ids) s s'

theorem progressEvents_of_returns {now : Instant} {ids : List Uuid} {u : Unit}
    (h : Returns (insertProgressEvents now ids) s u s') : ProgressEvents now ids s s' := by
  induction ids generalizing s with
  | nil =>
    simp only [insertProgressEvents, returns_pure] at h
    rw [h.2]
    exact .nil s
  | cons id ids ih =>
    simp only [insertProgressEvents, returns_bind, returns_insertCorrelatedProgressEvent] at h
    obtain ⟨_, s₁, ⟨e, correlationId, he, hcorrelation, rfl⟩, h⟩ := h
    exact .cons e correlationId he hcorrelation (ih h)

/-- The store after leases and deadlines were reclaimed, before the progress events. -/
def Store.reclaimed (clock : ReclaimClock) (locks : ReclaimLocks) (s : Store) : Store :=
  (((s.deliveriesReclaimed clock).leasesReclaimed clock locks).deadlinesExpired clock
    locks).hostsReleased clock |>.finishedTerminalized clock.terminal

/-- The executions that reclaiming changes. -/
def Store.affected (clock : ReclaimClock) (locks : ReclaimLocks) (s : Store) : List Uuid :=
  let s₁ := s.deliveriesReclaimed clock
  let s₂ := s₁.leasesReclaimed clock locks
  let s₃ := (s₂.deadlinesExpired clock locks).hostsReleased clock
  (idsOf (s₁.pages.filter (reclaimedPage clock locks s₁)) s₁.executions ++
    idsOf (s₂.pages.filter (overduePage clock locks s₂)) s₂.executions ++
    (s₃.executions.filter Execution.isStuck).map Execution.id).dedup

/-- Reclaiming is its statements in order, with a progress event for each changed execution. -/
theorem reclaimExpired_cases {clock : ReclaimClock} {locks : ReclaimLocks} {u : Unit}
    (h : Returns (reclaimExpired clock locks) s u s') :
    ProgressEvents clock.now (s.affected clock locks) (s.reclaimed clock locks) s' := by
  simp only [reclaimExpired, returns_bind, returns_updateAnalyticsOutbox,
    returns_updateOutboxEvents, returns_reclaimLeases, returns_expireDeadlines,
    returns_updateHostLeases, returns_terminalizeFinished, and_assoc, exists_and_left,
    exists_eq_left] at h
  exact progressEvents_of_returns h

end WebLens.Crawler
