import WebLens.Crawler.Counters

/-!
# Lease fencing

A worker may come back with a lease after any pause. `Held` says that a lease is still the one of
its page and its host slot. The transactions that a worker makes under a lease succeed only while
the lease is held, and otherwise fail as stale. A lease that is lost is never held again, because
every claim is made under a fresh owner; so a worker whose transaction succeeds has held its lease
all along, and a page is given at most one result.
-/

set_option autoImplicit false
set_option relaxedAutoImplicit false

namespace WebLens.Crawler

open Lib Lib.Transaction

variable {env : Env} {s s' : Store} {lease : PageLease}

/-- The page of the lease is leased with its owner and generation. -/
def PageHeld (s : Store) (lease : PageLease) : Prop :=
  ∃ page ∈ s.pages, page.isLeasedUnder lease = true

/-- The host slot of the lease carries its owner and generation. -/
def HostHeld (s : Store) (lease : PageLease) : Prop :=
  ∃ host ∈ s.hostLeases, host.isLeasedUnder lease = true

/-- The lease is still the one of its page and its host slot. -/
def Held (s : Store) (lease : PageLease) : Prop :=
  PageHeld s lease ∧ HostHeld s lease

/-! ### Stale leases -/

/-- Without its host slot, no row is selected. -/
theorem countP_of_not_hostHeld (h : ¬ HostHeld s lease) :
    s.hostLeases.countP (HostLease.isLeasedUnder lease) = 0 :=
  List.countP_eq_zero.2 fun host hhost hleased ↦ h ⟨host, hhost, hleased⟩

/-- Releasing the slot of a lost lease is refused. -/
theorem returns_releaseHost (lease : PageLease) (s : Store) :
    Returns (updateHostLeases (HostLease.isLeasedUnder lease) HostLease.release) s
      (s.hostLeases.countP (HostLease.isLeasedUnder lease)) { s with
        hostLeases :=
          Table.update (HostLease.isLeasedUnder lease) HostLease.release s.hostLeases } :=
  returns_updateHostLeases.2 ⟨rfl, rfl⟩

theorem commitRetry_stale {now : Instant} {attemptCount : ℕ} (h : ¬ HostHeld s lease) :
    Fails (commitRetry now lease attemptCount) s .staleLease := by
  refine (returns_updatePages.2 ⟨rfl, rfl⟩).fails_bind ?_
  refine (returns_releaseHost lease _).fails_bind ((fails_require ?_).bind _)
  rw [countP_of_not_hostHeld h]
  exact Nat.zero_ne_one

theorem commitResult_stale {now : Instant} {result : PageResult} {resultVersion : ℕ}
    (h : ¬ HostHeld s lease) : Fails (commitResult env now lease result resultVersion) s
      .staleLease := by
  refine (returns_updatePages.2 ⟨rfl, rfl⟩).fails_bind ?_
  refine (returns_releaseHost lease _).fails_bind ((fails_require ?_).bind _)
  rw [countP_of_not_hostHeld h]
  exact Nat.zero_ne_one

/-- A result under a lease that is not held is stale. -/
theorem commitPageResult_stale {now : Instant} {result : PageResult} (h : ¬ Held s lease) :
    Fails (commitPageResult env now lease result) s .staleLease := by
  refine (returns_get.2 ⟨rfl, rfl⟩).fails_bind ?_
  cases hpage : s.pages.find? (Page.isLeasedUnder lease) with
  | none => exact (fails_found rfl).bind _
  | some page =>
    have hheld : PageHeld s lease :=
      ⟨page, List.mem_of_find?_eq_some hpage, List.find?_some hpage⟩
    have hhost : ¬ HostHeld s lease := fun hhost ↦ h ⟨hheld, hhost⟩
    refine (returns_found.2 ⟨rfl, rfl⟩).fails_bind ?_
    split_ifs with hretry
    · exact commitRetry_stale hhost
    · exact commitResult_stale hhost

/-- A heartbeat of a lease that is not held is stale. -/
theorem extendPageLease_stale {leaseUntil : Instant} (h : ¬ Held s lease) :
    Fails (extendPageLease leaseUntil lease) s .staleLease := by
  refine (returns_updatePages.2 ⟨rfl, rfl⟩).fails_bind ?_
  by_cases hpages : s.pages.countP (Page.isLeasedUnder lease) = 1
  · have hheld : PageHeld s lease :=
      List.countP_pos_iff.1 (hpages ▸ Nat.zero_lt_one)
    refine (returns_require_of hpages).fails_bind ?_
    refine (returns_updateHostLeases.2 ⟨rfl, rfl⟩).fails_bind (fails_require ?_)
    have hcount := countP_of_not_hostHeld fun hhost ↦ h ⟨hheld, hhost⟩
    exact fun hone ↦ Nat.zero_ne_one (hcount.symm.trans hone)
  · exact (fails_require hpages).bind _

/-! ### A lost lease stays lost -/

/-- A page under another owner is not leased under the lease. -/
theorem not_leasedUnder_of_owner {page : Page} (h : page.leaseOwner ≠ some lease.leaseOwner) :
    page.isLeasedUnder lease ≠ true :=
  fun hleased ↦ h (isLeasedUnder_iff.1 hleased).2.2.2.1

/-- A page in another status is not leased under the lease. -/
theorem not_leasedUnder_of_status {page : Page} (h : page.status ≠ .leased) :
    page.isLeasedUnder lease ≠ true :=
  fun hleased ↦ h (isLeasedUnder_iff.1 hleased).2.2.1

theorem host_isLeasedUnder_iff {host : HostLease} :
    host.isLeasedUnder lease = true ↔ host.hostname = lease.hostname ∧
      host.slotNo = lease.hostSlotNo ∧ host.leaseOwner = some lease.leaseOwner ∧
      host.leaseGeneration = lease.hostGeneration := by
  simp only [HostLease.isLeasedUnder, HostLease.isSlot, Bool.and_eq_true, decide_eq_true_eq,
    and_assoc]

/-- A page that is leased under the lease after an update was so before. -/
theorem PageHeld.of_update {sel : Page → Bool} (set : Page → Page) {added : List Page}
    (h : PageHeld s' lease) (hpages : s'.pages = Table.update sel set s.pages ++ added)
    (hset : ∀ page ∈ s.pages, sel page = true → (set page).isLeasedUnder lease = true →
      page.isLeasedUnder lease = true)
    (hadded : ∀ page ∈ added, page.status ≠ .leased) : PageHeld s lease := by
  obtain ⟨page', hmem, hleased⟩ := h
  rw [hpages] at hmem
  rcases List.mem_append.1 hmem with hmem | hmem
  · obtain ⟨page, hpage, rfl⟩ := Table.mem_update.1 hmem
    split_ifs at hleased with hsel
    · exact ⟨page, hpage, hset page hpage hsel hleased⟩
    · exact ⟨page, hpage, hleased⟩
  · exact absurd hleased (not_leasedUnder_of_status (hadded page' hmem))

/-- A host slot that is leased under the lease after an update was so before. -/
theorem HostHeld.of_update {sel : HostLease → Bool} (set : HostLease → HostLease)
    (h : HostHeld s' lease) (hhosts : s'.hostLeases = Table.update sel set s.hostLeases)
    (hset : ∀ host, (set host).isLeasedUnder lease = true → host.isLeasedUnder lease = true) :
    HostHeld s lease := by
  obtain ⟨host', hmem, hleased⟩ := h
  rw [hhosts] at hmem
  obtain ⟨host, hhost, rfl⟩ := Table.mem_update.1 hmem
  split_ifs at hleased with hsel
  · exact ⟨host, hhost, hset host hleased⟩
  · exact ⟨host, hhost, hleased⟩

/-- Releasing a slot leaves it without an owner. -/
theorem HostLease.release_not_leasedUnder (host : HostLease) :
    host.release.isLeasedUnder lease = true → host.isLeasedUnder lease = true := by
  intro h
  cases (host_isLeasedUnder_iff.1 h).2.2.1

/-- A lease that is held after a reclaim was held before. -/
theorem Held.of_reclaimed {clock : ReclaimClock} {locks : ReclaimLocks}
    (h : Held (s.reclaimed clock locks) lease) : Held s lease := by
  refine ⟨?_, HostHeld.of_update HostLease.release h.2 rfl HostLease.release_not_leasedUnder⟩
  have hdeadline : PageHeld ((s.deliveriesReclaimed clock).leasesReclaimed clock locks) lease :=
    PageHeld.of_update Page.timeOut h.1 (List.append_nil _).symm
      (fun page _ _ htimeOut ↦ absurd htimeOut (not_leasedUnder_of_status (by simp [Page.timeOut])))
      (by simp)
  exact PageHeld.of_update (Page.expire clock.leaseUpdate) hdeadline (List.append_nil _).symm
    (fun page _ _ hexpire ↦ absurd hexpire (not_leasedUnder_of_owner
      (by simp [Page.expire, Page.release]))) (by simp)

/-- No transition makes a lost lease held again. -/
theorem Transition.held {sys sys' : System} (h : Transition env sys sys')
    (howner : lease.leaseOwner < sys.store.nextUuid) (hheld : Held sys'.store lease) :
    Held sys.store lease := by
  have hrelease : ∀ page : Page, page.leaseOwner = none → page.isLeasedUnder lease ≠ true :=
    fun page hnone ↦ not_leasedUnder_of_owner (by rw [hnone]; simp)
  obtain ⟨_, h⟩ := h
  cases h with
  | unchanged => exact hheld
  | idle => exact hheld
  | stale => exact hheld
  | started now receivedAt envelope url =>
    obtain ⟨⟨page, hpage, hleased⟩, host, hhost, hhostLeased⟩ := hheld
    constructor
    · rcases List.mem_append.1 hpage with hpage | hpage
      · exact ⟨page, hpage, hleased⟩
      · rw [List.mem_singleton.1 hpage] at hleased
        exact absurd hleased (not_leasedUnder_of_status (by simp [seedPage]))
    · rcases List.mem_append.1 hhost with hhost | hhost
      · exact ⟨host, hhost, hhostLeased⟩
      · obtain ⟨index, -, rfl⟩ := List.mem_map.1 (List.mem_of_mem_filter hhost)
        cases (host_isLeasedUnder_iff.1 hhostLeased).2.2.1
  | cancelled now receivedAt envelope e =>
    exact ⟨PageHeld.of_update Page.cancel hheld.1 (List.append_nil _).symm
        (fun page _ _ hcancel ↦ absurd hcancel (hrelease _ rfl)) (by simp),
      HostHeld.of_update HostLease.release hheld.2 rfl HostLease.release_not_leasedUnder⟩
  | claimed now leaseUntil hostDelay locks e host page correlationId e' =>
    have hne : some sys.store.nextUuid ≠ some lease.leaseOwner :=
      fun heq ↦ howner.ne (Option.some.inj heq).symm
    refine ⟨PageHeld.of_update (Page.claim (newLease sys.store.nextUuid e host page correlationId)
        leaseUntil) hheld.1 (List.append_nil _).symm
        (fun page _ _ hclaim ↦ absurd hclaim (not_leasedUnder_of_owner hne)) (by simp),
      HostHeld.of_update (HostLease.claim (newLease sys.store.nextUuid e host page correlationId)
        leaseUntil (now + hostDelay)) hheld.2 rfl fun other hclaim ↦ ?_⟩
    exact absurd (host_isLeasedUnder_iff.1 hclaim).2.2.1 hne
  | extended leaseUntil lease' =>
    refine ⟨PageHeld.of_update (fun page ↦ { page with leaseExpiresAt := some leaseUntil }) hheld.1
        (List.append_nil _).symm (fun page _ _ hleased ↦ hleased) (by simp),
      HostHeld.of_update (fun host ↦ { host with leaseExpiresAt := some leaseUntil }) hheld.2
        rfl fun host hleased ↦ hleased⟩
  | requeued now lease' result page =>
    exact ⟨PageHeld.of_update (Page.requeue _) hheld.1 (List.append_nil _).symm
        (fun page _ _ hrequeue ↦ absurd hrequeue (hrelease _ rfl)) (by simp),
      HostHeld.of_update HostLease.release hheld.2 rfl HostLease.release_not_leasedUnder⟩
  | staged now lease' result page added payload outboxId e _ _ _ _ _ _ hadded =>
    refine ⟨PageHeld.of_update (Page.stage result.terminalStatus) hheld.1 rfl
        (fun page _ _ hstage ↦ absurd hstage (hrelease _ rfl)) (fun new hnew ↦ ?_),
      HostHeld.of_update HostLease.release hheld.2 rfl HostLease.release_not_leasedUnder⟩
    obtain ⟨url, hshape⟩ := hadded.shape new hnew
    rw [hshape]
    simp [discoveredPage]
  | analyticsClaimed => exact hheld
  | published now batch page terminalStatus =>
    refine ⟨PageHeld.of_update (Page.complete terminalStatus) hheld.1 (List.append_nil _).symm
      (fun page _ _ hcomplete ↦ absurd hcomplete (not_leasedUnder_of_status ?_)) (by simp),
      hheld.2⟩
    cases terminalStatus <;> simp [Page.complete, TerminalStatus.toPageStatus]
  | analyticsRetried => exact hheld
  | eventsMoved => exact hheld
  | reclaimed clock locks s' _ _ hevents =>
    obtain ⟨-, hpages, hhosts, -⟩ := progressEvents_tables hevents
    have hreclaimed : Held (sys.store.reclaimed clock locks) lease := by
      rw [Held, PageHeld, HostHeld, ← hpages, ← hhosts]
      exact hheld
    exact hreclaimed.of_reclaimed

/-! ### Results of pages -/

/-- The number of analytics rows of a page. -/
def rowCount (rows : List AnalyticsOutboxRow) (pageId : Uuid) : ℕ :=
  rows.countP fun row ↦ decide (row.pageId = pageId)

/-- Every page has as many analytics rows as results. -/
def Stored (s : Store) : Prop :=
  ∀ page ∈ s.pages, rowCount s.analyticsOutbox page.id = page.resultVersion

/-- A page and its results. -/
def Page.results (page : Page) : Uuid × ℕ :=
  (page.id, page.resultVersion)

/-- A page and its new version after a step: it kept its results, or a lease that held it and its
host slot added one. -/
structure Versioned (sys : System) (page page' : Page) : Prop where
  id : page'.id = page.id
  result : page'.resultVersion = page.resultVersion ∨
    page'.resultVersion = page.resultVersion + 1 ∧
      ∃ lease ∈ sys.leases, page.isLeasedUnder lease = true ∧ HostHeld sys.store lease

/-- An update that keeps the results of the pages. -/
theorem map_results_update {sel : Page → Bool} {set : Page → Page} {pages : List Page}
    (h : ∀ page, (set page).results = page.results) :
    (Table.update sel set pages).map Page.results = pages.map Page.results :=
  Table.map_update _ fun page _ _ ↦ h page

/-- Analytics rows with the same fixed columns count the same. -/
theorem rowCount_congr {rows rows' : List AnalyticsOutboxRow}
    (h : rows'.map AnalyticsOutboxRow.fixed = rows.map AnalyticsOutboxRow.fixed) (pageId : Uuid) :
    rowCount rows' pageId = rowCount rows pageId := by
  have hcount : ∀ rows : List AnalyticsOutboxRow,
      rowCount rows pageId = (rows.map AnalyticsOutboxRow.pageId).count pageId := by
    intro rows
    rw [rowCount, List.count, List.countP_map]
    rfl
  rw [hcount, hcount,
    map_of_map_fixed AnalyticsOutboxRow.fixed AnalyticsOutboxRow.pageId (fun _ ↦ rfl) h]

/-- Rows and pages with the same results are stored as before. -/
theorem Stored.congr (hstored : Stored s)
    (hpages : s'.pages.map Page.results = s.pages.map Page.results)
    (hrows : s'.analyticsOutbox.map AnalyticsOutboxRow.fixed =
      s.analyticsOutbox.map AnalyticsOutboxRow.fixed) : Stored s' := by
  intro page' hpage'
  obtain ⟨page, hpage, heq⟩ := exists_mem_of_map_eq hpages.symm hpage'
  obtain ⟨hid, hversion⟩ := Prod.mk.inj heq
  rw [rowCount_congr hrows, ← hid, ← hversion, hstored page hpage]

/-- No row is about a page that does not exist yet. -/
theorem rowCount_fresh (hkeyed : Keyed s) {pageId : Uuid} (h : s.nextUuid ≤ pageId) :
    rowCount s.analyticsOutbox pageId = 0 := by
  refine List.countP_eq_zero.2 fun row hrow heq ↦ ?_
  obtain ⟨page, hpage, hid, -⟩ := hkeyed.rowPage row hrow
  have hlt := (hkeyed.pageFresh page hpage).trans_le h
  rw [hid, of_decide_eq_true heq] at hlt
  exact lt_irrefl _ hlt

theorem Stored.started (hstored : Stored s) (hkeyed : Keyed s) {now receivedAt : Instant}
    {envelope : ScanCommandEnvelope} {normalizedURL : Utf8.ByteString} :
    Stored (s.started env now receivedAt envelope normalizedURL) := by
  intro page hpage
  rcases List.mem_append.1 hpage with hpage | hpage
  · exact hstored page hpage
  · rw [List.mem_singleton.1 hpage]
    exact rowCount_fresh hkeyed (Nat.le_succ _)

/-- Staging a result adds a row and a result to the page of the lease. -/
theorem Stored.staged (hstored : Stored s) (hkeyed : Keyed s) {now : Instant} {result : PageResult}
    {resultVersion : ℕ} {payload : Utf8.ByteString} {added : List Page} {outboxId : Uuid}
    {page : Page} (hpage : page ∈ s.pages) (hleased : page.isLeasedUnder lease = true)
    (hadded : Discovered lease now s.nextUuid outboxId added) :
    Stored (s.staged env now lease result resultVersion payload added outboxId) := by
  have hid : page.id = lease.pageId := (isLeasedUnder_iff.1 hleased).2.1
  have hcount : ∀ pageId, rowCount (s.staged env now lease result resultVersion payload added
      outboxId).analyticsOutbox pageId =
        rowCount s.analyticsOutbox pageId + if lease.pageId = pageId then 1 else 0 := by
    intro pageId
    simp only [rowCount, Store.staged, List.countP_append, List.countP_singleton, outboxRow,
      decide_eq_true_eq]
  have hkey : page.hasKey lease.retentionMonth lease.pageId = true := by
    simp [Page.hasKey, hid, (isLeasedUnder_iff.1 hleased).1]
  intro page' hpage'
  rw [hcount]
  rcases List.mem_append.1 hpage' with hpage' | hpage'
  · obtain ⟨other, hother, rfl⟩ := Table.mem_update.1 hpage'
    split_ifs with hsel hlease hlease
    · exact congrArg (· + 1) (hstored other hother)
    · rw [(hasKey_iff_of_keyed hkeyed hpage hkey other hother).1 hsel] at hlease
      exact absurd hid.symm hlease
    · rw [hkeyed.page_eq hother hpage (hlease.symm.trans hid.symm)] at hsel
      exact absurd hkey hsel
    · exact hstored other hother
  · obtain ⟨url, hshape⟩ := hadded.shape page' hpage'
    have hne : lease.pageId ≠ page'.id := by
      have hlt := (hkeyed.pageFresh page hpage).trans_le (hadded.fresh page' hpage').1
      rw [hid] at hlt
      exact hlt.ne
    rw [if_neg hne, rowCount_fresh hkeyed (hadded.fresh page' hpage').1, hshape]
    rfl

/-- The page of the lease is versioned by its result. -/
theorem versioned_staged {sys : System} (hkeyed : Keyed sys.store)
    (terminalStatus : TerminalStatus) (added : List Page) (hlease : lease ∈ sys.leases)
    {leased : Page} (hmem : leased ∈ sys.store.pages) (hleased : leased.isLeasedUnder lease = true)
    (hhost : HostHeld sys.store lease) {page : Page} (hpage : page ∈ sys.store.pages) :
    ∃ page' ∈ Table.update (Page.hasKey lease.retentionMonth lease.pageId)
      (Page.stage terminalStatus) sys.store.pages ++ added, Versioned sys page page' := by
  have hkey : leased.hasKey lease.retentionMonth lease.pageId = true := by
    simp [Page.hasKey, (isLeasedUnder_iff.1 hleased).1, (isLeasedUnder_iff.1 hleased).2.1]
  by_cases hsel : page.hasKey lease.retentionMonth lease.pageId = true
  · refine ⟨page.stage terminalStatus,
      List.mem_append_left _ (Table.mem_update_of_sel hpage hsel), rfl, .inr ⟨rfl, lease, hlease, ?_,
      hhost⟩⟩
    rwa [(hasKey_iff_of_keyed hkeyed hmem hkey page hpage).1 hsel]
  · exact ⟨page, List.mem_append_left _ (Table.mem_update_of_not hpage (Bool.not_eq_true _ ▸ hsel)),
      rfl, .inl rfl⟩

/-- A transition gives a page a result only under a lease that holds the page and its slot, and
stores it in one row. -/
theorem Transition.results {sys sys' : System} (h : Transition env sys sys')
    (hkeyed : Keyed sys.store) (hstored : Stored sys.store) : Stored sys'.store ∧
      ∀ page ∈ sys.store.pages, ∃ page' ∈ sys'.store.pages, Versioned sys page page' := by
  have hsame : ∀ {s' : Store}, s'.pages.map Page.results = sys.store.pages.map Page.results →
      s'.analyticsOutbox.map AnalyticsOutboxRow.fixed =
        sys.store.analyticsOutbox.map AnalyticsOutboxRow.fixed →
      Stored s' ∧ ∀ page ∈ sys.store.pages, ∃ page' ∈ s'.pages, Versioned sys page page' := by
    intro s' hpages hrows
    refine ⟨hstored.congr hpages hrows, fun page hpage ↦ ?_⟩
    obtain ⟨page', hpage', heq⟩ := exists_mem_of_map_eq hpages hpage
    exact ⟨page', hpage', (Prod.mk.inj heq).1, .inl (Prod.mk.inj heq).2⟩
  obtain ⟨_, h⟩ := h
  cases h with
  | unchanged | idle | stale | eventsMoved => exact hsame rfl rfl
  | started =>
    exact ⟨hstored.started hkeyed, fun page hpage ↦
      ⟨page, List.mem_append_left _ hpage, rfl, .inl rfl⟩⟩
  | cancelled | claimed | extended | requeued =>
    exact hsame (map_results_update fun _ ↦ rfl) rfl
  | staged now lease result page added payload outboxId e hlease hpage hleased hhost _ _ hadded =>
    have hheld : HostHeld sys.store lease :=
      List.countP_pos_iff.1 (hhost ▸ Nat.zero_lt_one)
    exact ⟨hstored.staged hkeyed hpage hleased hadded,
      fun other hother ↦
        versioned_staged hkeyed result.terminalStatus added hlease hpage hleased hheld hother⟩
  | analyticsClaimed leaseUntil workerId ids rows hrows =>
    subst hrows
    exact hsame rfl (map_fixed_update_rows fun _ ↦ rfl)
  | published =>
    exact hsame (map_results_update fun _ ↦ rfl) (map_fixed_update_rows fun _ ↦ rfl)
  | analyticsRetried => exact hsame rfl (map_fixed_update_rows fun _ ↦ rfl)
  | reclaimed clock locks s' _ _ hevents =>
    obtain ⟨-, hpages, -, hrows, -⟩ := progressEvents_tables hevents
    refine hsame ?_ ?_
    · rw [hpages]
      have hleases : ((sys.store.deliveriesReclaimed clock).leasesReclaimed clock
          locks).pages.map Page.results = sys.store.pages.map Page.results :=
        map_results_update fun _ ↦ rfl
      have hdeadlines : ∀ s : Store, (s.deadlinesExpired clock locks).pages.map Page.results =
          s.pages.map Page.results := fun _ ↦ map_results_update fun _ ↦ rfl
      exact (hdeadlines _).trans hleases
    · rw [hrows]
      exact map_fixed_update_rows fun _ ↦ rfl

/-! ### Every run -/

/-- What a run does to leases and results: leases are kept, a lease held at the end was held at the
start, and no page loses a result. -/
structure Fenced (sys sys' : System) : Prop where
  leases : ∀ lease ∈ sys.leases, lease ∈ sys'.leases
  held : ∀ lease ∈ sys.leases, Held sys'.store lease → Held sys.store lease
  results : ∀ page ∈ sys.store.pages, ∃ page' ∈ sys'.store.pages, page'.id = page.id ∧
    page.resultVersion ≤ page'.resultVersion

theorem Fenced.refl (sys : System) : Fenced sys sys :=
  ⟨fun _ h ↦ h, fun _ _ h ↦ h, fun page hpage ↦ ⟨page, hpage, rfl, le_refl _⟩⟩

theorem Fenced.trans {sys₁ sys₂ sys₃ : System} (h₁ : Fenced sys₁ sys₂) (h₂ : Fenced sys₂ sys₃) :
    Fenced sys₁ sys₃ where
  leases lease hlease := h₂.leases lease (h₁.leases lease hlease)
  held lease hlease hheld := h₁.held lease hlease (h₂.held lease (h₁.leases lease hlease) hheld)
  results page hpage := by
    obtain ⟨page', hpage', hid, hle⟩ := h₁.results page hpage
    obtain ⟨page'', hpage'', hid', hle'⟩ := h₂.results page' hpage'
    exact ⟨page'', hpage'', hid'.trans hid, hle.trans hle'⟩

/-- Keys, and as many rows as results. -/
structure System.Stored (sys : System) : Prop where
  keyed : sys.Keyed
  stored : Crawler.Stored sys.store

theorem Transition.stored {sys sys' : System} (h : Transition env sys sys') (hsys : sys.Stored) :
    sys'.Stored :=
  ⟨h.system_keyed hsys.keyed, (h.results hsys.keyed.store hsys.stored).1⟩

theorem Transition.fenced {sys sys' : System} (h : Transition env sys sys') (hsys : sys.Stored) :
    Fenced sys sys' where
  leases lease hlease := by
    obtain ⟨_, h⟩ := h
    cases h with
    | claimed => exact List.mem_cons_of_mem _ hlease
    | _ => exact hlease
  held lease hlease hheld := by
    obtain ⟨_, _, _, _, _, _, _, _, _, _, _, _, howner⟩ := hsys.keyed.leases lease hlease
    exact h.held howner hheld
  results page hpage := by
    obtain ⟨page', hpage', hid, hversion⟩ :=
      (h.results hsys.keyed.store hsys.stored).2 page hpage
    refine ⟨page', hpage', hid, ?_⟩
    omega

theorem stored_after (env : Env) (actions : List Action) : (System.after env actions).Stored :=
  after_invariant ⟨System.keyed_init, by simp [Stored]⟩ (fun h hsys ↦ h.stored hsys) actions

/-- The steps of a run from a reachable state. -/
theorem fenced_after (env : Env) (actions more : List Action) :
    Fenced (System.after env actions) (System.after env (actions ++ more)) := by
  rw [System.after, System.after, run_append]
  exact run_relation (fun sys action h ↦ (step_transition env sys action).stored h)
    (fun sys action h ↦ (step_transition env sys action).fenced h) Fenced.refl Fenced.trans
    (stored_after env actions) more

/-- Lease fencing. A result or a heartbeat under a lease that is not held is stale and changes
nothing. A result that changes the database is given under a lease that was held at every moment
since the claim. A page has at most one result, kept for ever and stored in exactly one analytics
row, and a step gives it one only under a lease that holds the page and its slot. -/
theorem lease_fencing (env : Env) :
    (∀ (s : Store) (lease : PageLease), ¬ Held s lease →
      (∀ now result, commit (commitPageResult env now lease result) s = (.error .staleLease, s)) ∧
      ∀ leaseUntil, commit (extendPageLease leaseUntil lease) s = (.error .staleLease, s)) ∧
    (∀ actions, ∀ lease ∈ (System.after env actions).leases, ∀ more now result,
      (commit (commitPageResult env now lease result) (System.after env (actions ++ more)).store).2 ≠
        (System.after env (actions ++ more)).store →
      ∀ mid, mid <+: more → Held (System.after env (actions ++ mid)).store lease) ∧
    (∀ actions, ∀ page ∈ (System.after env actions).store.pages, page.resultVersion ≤ 1 ∧
      rowCount (System.after env actions).store.analyticsOutbox page.id = page.resultVersion ∧
      ∀ more, ∃ page' ∈ (System.after env (actions ++ more)).store.pages,
        page'.id = page.id ∧ page.resultVersion ≤ page'.resultVersion) ∧
    ∀ actions action, ∀ page ∈ (System.after env actions).store.pages,
      ∀ page' ∈ (System.after env (actions ++ [action])).store.pages, page'.id = page.id →
        page'.resultVersion ≠ page.resultVersion →
        page.resultVersion = 0 ∧ page'.resultVersion = 1 ∧
          ∃ lease ∈ (System.after env actions).leases, page.isLeasedUnder lease = true ∧
            Held (System.after env actions).store lease := by
  refine ⟨fun s lease h ↦ ⟨fun now result ↦ commit_of_fails (commitPageResult_stale h),
    fun leaseUntil ↦ commit_of_fails (extendPageLease_stale h)⟩, ?_, ?_, ?_⟩
  · rintro actions lease hlease more now result hchanged mid ⟨rest, rfl⟩
    have hheld : Held (System.after env (actions ++ (mid ++ rest))).store lease := by
      by_contra hlost
      rw [commit_of_fails (commitPageResult_stale hlost)] at hchanged
      exact hchanged rfl
    rw [← List.append_assoc] at hheld
    exact (fenced_after env (actions ++ mid) rest).held lease
      ((fenced_after env actions mid).leases lease hlease) hheld
  · intro actions page hpage
    exact ⟨((conserved_after env actions).conserved.pages page hpage).version,
      (stored_after env actions).stored page hpage,
      fun more ↦ (fenced_after env actions more).results page hpage⟩
  · intro actions action page hpage page' hpage' hid hne
    have hstored := stored_after env actions
    have hstep : Transition env (System.after env actions)
        (System.after env (actions ++ [action])) := by
      rw [System.after, System.after, run_concat]
      exact step_transition env _ action
    obtain ⟨page'', hpage'', hid', hversion⟩ :=
      (hstep.results hstored.keyed.store hstored.stored).2 page hpage
    obtain rfl := (stored_after env (actions ++ [action])).keyed.store.page_eq hpage' hpage''
      (hid.trans hid'.symm)
    obtain ⟨hgrown, lease, hlease, hleased, hhost⟩ := hversion.resolve_left hne
    have hone := ((conserved_after env (actions ++ [action])).conserved.pages page' hpage').version
    exact ⟨by omega, by omega, lease, hlease, hleased, ⟨page, hpage, hleased⟩, hhost⟩

/-- The sample scan: the worker that returns a failure at once has held its lease. -/
theorem lease_fencing_sample :
    Held (System.after Env.sample [.acceptCommand 1 1 (.sample 5), .claimPage 2 100 1 {}]).store
      (.sample 5) := by
  refine (lease_fencing Env.sample).2.1
    [.acceptCommand 1 1 (.sample 5), .claimPage 2 100 1 {}] (.sample 5) (by decide +kernel) [] 3
    { statusCode := 503 } (fun heq ↦ ?_) [] (List.prefix_refl _)
  -- The page is queued again.
  have hpages := congrArg (fun s : Store ↦ s.pages.map Page.status) heq
  revert hpages
  decide +kernel

end WebLens.Crawler
