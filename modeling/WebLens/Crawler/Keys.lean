import WebLens.Crawler.Transition

/-!
# Keys and references

The columns of a row that no transaction changes, its `fixed` part, carry the keys and the
references between the tables. `Keyed` says that keys are distinct and smaller than the next fresh
identifier, that every page belongs to an execution with its owner and month, and that every row of
the analytics outbox belongs to a page. A transaction that inserts no row changes no fixed part,
so it preserves `Keyed` by `Keyed.of_sameFrame`; the two that insert rows are treated one by one.

`Leased` and `Taken` say what a lease or a batch that a worker holds still tells about the store,
however old it is.
-/

set_option autoImplicit false
set_option relaxedAutoImplicit false

namespace WebLens.Crawler

open Lib

variable {env : Env} {s s' : Store}

/-! ### Fixed parts of rows -/

/-- The columns of an execution that never change. -/
def Execution.fixed (e : Execution) : Execution :=
  { e with
    status := .queued, commandVersion := 0, discoveredCount := 0, queuedCount := 0
    leasedCount := 0, persistingCount := 0, succeededCount := 0, failedCount := 0
    skippedCount := 0, cancelledCount := 0, analyticsExpectedCount := 0
    analyticsPublishedCount := 0, progressVersion := 0, terminalCode := none
    terminalMessage := none, updatedAt := 0 }

/-- The columns of a page that never change. -/
def Page.fixed (page : Page) : Page :=
  { page with
    status := .queued, pendingTerminalStatus := none, attemptCount := 0, availableAt := 0
    leaseOwner := none, leaseGeneration := 0, leaseExpiresAt := none, resultVersion := 0 }

/-- The columns of an analytics row that never change. -/
def AnalyticsOutboxRow.fixed (row : AnalyticsOutboxRow) : AnalyticsOutboxRow :=
  { row with
    status := .pending, payload := none, availableAt := 0, deliveryAttempts := 0
    leaseOwner := none, leaseExpiresAt := none }

/-- The primary key of a host slot. -/
def HostLease.key (host : HostLease) : Utf8.ByteString × ℕ :=
  (host.hostname, host.slotNo)

/-- The two stores have the same rows up to the columns that change. -/
structure SameFrame (s s' : Store) : Prop where
  executions : s'.executions.map Execution.fixed = s.executions.map Execution.fixed
  pages : s'.pages.map Page.fixed = s.pages.map Page.fixed
  rows : s'.analyticsOutbox.map AnalyticsOutboxRow.fixed =
    s.analyticsOutbox.map AnalyticsOutboxRow.fixed
  hosts : s'.hostLeases.map HostLease.key = s.hostLeases.map HostLease.key
  nextUuid : s.nextUuid ≤ s'.nextUuid

/-- Every row of the first store is still in the second, up to the columns that change. -/
structure Persists (s s' : Store) : Prop where
  executions : ∀ e ∈ s.executions, ∃ e' ∈ s'.executions, e'.fixed = e.fixed
  pages : ∀ page ∈ s.pages, ∃ page' ∈ s'.pages, page'.fixed = page.fixed
  rows : ∀ row ∈ s.analyticsOutbox, ∃ row' ∈ s'.analyticsOutbox, row'.fixed = row.fixed
  nextUuid : s.nextUuid ≤ s'.nextUuid

theorem SameFrame.refl (s : Store) : SameFrame s s :=
  ⟨rfl, rfl, rfl, rfl, le_refl _⟩

theorem SameFrame.trans {s₁ s₂ s₃ : Store} (h₁ : SameFrame s₁ s₂) (h₂ : SameFrame s₂ s₃) :
    SameFrame s₁ s₃ :=
  ⟨h₂.executions.trans h₁.executions, h₂.pages.trans h₁.pages, h₂.rows.trans h₁.rows,
    h₂.hosts.trans h₁.hosts, h₁.nextUuid.trans h₂.nextUuid⟩

/-- A row with the same image in another list with the same images. -/
theorem exists_mem_of_map_eq {α β : Type} {f : α → β} {rows rows' : List α}
    (h : rows'.map f = rows.map f) {row : α} (hmem : row ∈ rows) :
    ∃ row' ∈ rows', f row' = f row :=
  List.mem_map.1 (h ▸ List.mem_map_of_mem hmem)

theorem SameFrame.persists (h : SameFrame s s') : Persists s s' :=
  ⟨fun _ ↦ exists_mem_of_map_eq h.executions, fun _ ↦ exists_mem_of_map_eq h.pages,
    fun _ ↦ exists_mem_of_map_eq h.rows, h.nextUuid⟩

theorem Persists.refl (s : Store) : Persists s s :=
  (SameFrame.refl s).persists

theorem Persists.trans {s₁ s₂ s₃ : Store} (h₁ : Persists s₁ s₂) (h₂ : Persists s₂ s₃) :
    Persists s₁ s₃ where
  executions e he := by
    obtain ⟨e', he', heq⟩ := h₁.executions e he
    obtain ⟨e'', he'', heq'⟩ := h₂.executions e' he'
    exact ⟨e'', he'', heq'.trans heq⟩
  pages page hpage := by
    obtain ⟨page', hpage', heq⟩ := h₁.pages page hpage
    obtain ⟨page'', hpage'', heq'⟩ := h₂.pages page' hpage'
    exact ⟨page'', hpage'', heq'.trans heq⟩
  rows row hrow := by
    obtain ⟨row', hrow', heq⟩ := h₁.rows row hrow
    obtain ⟨row'', hrow'', heq'⟩ := h₂.rows row' hrow'
    exact ⟨row'', hrow'', heq'.trans heq⟩
  nextUuid := h₁.nextUuid.trans h₂.nextUuid

/-- The fixed columns of an execution, one by one. -/
theorem Execution.of_fixed_eq {e e' : Execution} (h : e'.fixed = e.fixed) :
    e'.id = e.id ∧ e'.scanId = e.scanId ∧ e'.ownerId = e.ownerId ∧
      e'.retentionMonth = e.retentionMonth ∧ e'.maxPages = e.maxPages ∧ e'.maxDepth = e.maxDepth := by
  simp only [fixed, Execution.mk.injEq] at h
  exact ⟨h.1, h.2.1, h.2.2.1, h.2.2.2.2.1, by tauto, by tauto⟩

/-- The fixed columns of a page, one by one. -/
theorem Page.of_fixed_eq {page page' : Page} (h : page'.fixed = page.fixed) :
    page'.id = page.id ∧ page'.retentionMonth = page.retentionMonth ∧
      page'.executionId = page.executionId ∧ page'.ownerId = page.ownerId ∧
      page'.hostname = page.hostname ∧ page'.normalizedURL = page.normalizedURL ∧
      page'.discoveryDepth = page.discoveryDepth := by
  simp only [fixed, Page.mk.injEq] at h
  tauto

/-- The fixed columns of an analytics row, one by one. -/
theorem AnalyticsOutboxRow.of_fixed_eq {row row' : AnalyticsOutboxRow} (h : row'.fixed = row.fixed) :
    row'.id = row.id ∧ row'.retentionMonth = row.retentionMonth ∧
      row'.executionId = row.executionId ∧ row'.ownerId = row.ownerId ∧
      row'.pageId = row.pageId ∧ row'.resultVersion = row.resultVersion ∧
      row'.payloadSHA256 = row.payloadSHA256 := by
  simp only [fixed, AnalyticsOutboxRow.mk.injEq] at h
  tauto

/-! ### Keys -/

/-- Keys are distinct and in use, and references are to rows that exist. -/
structure Keyed (s : Store) : Prop where
  executionIds : (s.executions.map Execution.id).Nodup
  scanIds : (s.executions.map Execution.scanId).Nodup
  pageIds : (s.pages.map Page.id).Nodup
  rowIds : (s.analyticsOutbox.map AnalyticsOutboxRow.id).Nodup
  slots : (s.hostLeases.map HostLease.key).Nodup
  executionFresh : ∀ e ∈ s.executions, e.id < s.nextUuid
  pageFresh : ∀ page ∈ s.pages, page.id < s.nextUuid
  rowFresh : ∀ row ∈ s.analyticsOutbox, row.id < s.nextUuid
  pageExecution : ∀ page ∈ s.pages, ∃ e ∈ s.executions, page.isOf e = true
  rowPage : ∀ row ∈ s.analyticsOutbox, ∃ page ∈ s.pages, page.id = row.pageId ∧
    page.retentionMonth = row.retentionMonth ∧ page.executionId = row.executionId ∧
    page.ownerId = row.ownerId

/-- Belonging to an execution looks at fixed columns only. -/
theorem Page.isOf_congr {page page' : Page} {e e' : Execution} (hpage : page'.fixed = page.fixed)
    (he : e'.fixed = e.fixed) : page'.isOf e' = page.isOf e := by
  obtain ⟨-, hmonth, hexecution, howner, -⟩ := Page.of_fixed_eq hpage
  obtain ⟨hid, -, howner', hmonth', -⟩ := Execution.of_fixed_eq he
  simp only [Page.isOf, hmonth, hexecution, howner, hid, howner', hmonth']

/-- A column of the fixed part is the same in every row of stores with the same frame. -/
theorem map_of_map_fixed {α β : Type} (fixed : α → α) (column : α → β) {rows rows' : List α}
    (hcolumn : ∀ row, column (fixed row) = column row) (h : rows'.map fixed = rows.map fixed) :
    rows'.map column = rows.map column := by
  have hmap : ∀ rows : List α, (rows.map fixed).map column = rows.map column := by
    intro rows
    rw [List.map_map]
    exact List.map_congr_left fun row _ ↦ hcolumn row
  rw [← hmap rows', h, hmap rows]

/-- Keys look at the frame of a store only. -/
theorem Keyed.of_sameFrame (hkeyed : Keyed s) (h : SameFrame s s') : Keyed s' where
  executionIds := by
    rw [map_of_map_fixed Execution.fixed Execution.id (fun _ ↦ rfl) h.executions]
    exact hkeyed.executionIds
  scanIds := by
    rw [map_of_map_fixed Execution.fixed Execution.scanId (fun _ ↦ rfl) h.executions]
    exact hkeyed.scanIds
  pageIds := by
    rw [map_of_map_fixed Page.fixed Page.id (fun _ ↦ rfl) h.pages]
    exact hkeyed.pageIds
  rowIds := by
    rw [map_of_map_fixed AnalyticsOutboxRow.fixed AnalyticsOutboxRow.id (fun _ ↦ rfl) h.rows]
    exact hkeyed.rowIds
  slots := by
    rw [h.hosts]
    exact hkeyed.slots
  executionFresh e' he' := by
    obtain ⟨e, he, heq⟩ := exists_mem_of_map_eq h.executions.symm he'
    rw [← (Execution.of_fixed_eq heq).1]
    exact (hkeyed.executionFresh e he).trans_le h.nextUuid
  pageFresh page' hpage' := by
    obtain ⟨page, hpage, heq⟩ := exists_mem_of_map_eq h.pages.symm hpage'
    rw [← (Page.of_fixed_eq heq).1]
    exact (hkeyed.pageFresh page hpage).trans_le h.nextUuid
  rowFresh row' hrow' := by
    obtain ⟨row, hrow, heq⟩ := exists_mem_of_map_eq h.rows.symm hrow'
    rw [← (AnalyticsOutboxRow.of_fixed_eq heq).1]
    exact (hkeyed.rowFresh row hrow).trans_le h.nextUuid
  pageExecution page' hpage' := by
    obtain ⟨page, hpage, heq⟩ := exists_mem_of_map_eq h.pages.symm hpage'
    obtain ⟨e, he, hof⟩ := hkeyed.pageExecution page hpage
    obtain ⟨e', he', heq'⟩ := exists_mem_of_map_eq h.executions he
    exact ⟨e', he', (Page.isOf_congr heq.symm heq').trans hof⟩
  rowPage row' hrow' := by
    obtain ⟨row, hrow, heq⟩ := exists_mem_of_map_eq h.rows.symm hrow'
    obtain ⟨page, hpage, hid, hmonth, hexecution, howner⟩ := hkeyed.rowPage row hrow
    obtain ⟨page', hpage', heq'⟩ := exists_mem_of_map_eq h.pages hpage
    obtain ⟨rid, rmonth, rexecution, rowner, rpage, -⟩ := AnalyticsOutboxRow.of_fixed_eq heq
    obtain ⟨pid, pmonth, pexecution, powner, -⟩ := Page.of_fixed_eq heq'
    refine ⟨page', hpage', ?_, ?_, ?_, ?_⟩
    · rw [pid, hid, rpage]
    · rw [pmonth, hmonth, rmonth]
    · rw [pexecution, hexecution, rexecution]
    · rw [powner, howner, rowner]

/-! ### Frames of the transactions -/

/-- An update of an execution that keeps its fixed part. -/
theorem map_fixed_update_executions {sel : Execution → Bool} {set : Execution → Execution}
    {rows : List Execution} (h : ∀ e, (set e).fixed = e.fixed) :
    (Table.update sel set rows).map Execution.fixed = rows.map Execution.fixed :=
  Table.map_update _ fun e _ _ ↦ h e

/-- An update of pages that keeps their fixed parts. -/
theorem map_fixed_update_pages {sel : Page → Bool} {set : Page → Page} {rows : List Page}
    (h : ∀ page, (set page).fixed = page.fixed) :
    (Table.update sel set rows).map Page.fixed = rows.map Page.fixed :=
  Table.map_update _ fun page _ _ ↦ h page

/-- An update of analytics rows that keeps their fixed parts. -/
theorem map_fixed_update_rows {sel : AnalyticsOutboxRow → Bool}
    {set : AnalyticsOutboxRow → AnalyticsOutboxRow} {rows : List AnalyticsOutboxRow}
    (h : ∀ row, (set row).fixed = row.fixed) :
    (Table.update sel set rows).map AnalyticsOutboxRow.fixed =
      rows.map AnalyticsOutboxRow.fixed :=
  Table.map_update _ fun row _ _ ↦ h row

/-- An update of host slots that keeps their keys. -/
theorem map_key_update_hosts {sel : HostLease → Bool} {set : HostLease → HostLease}
    {rows : List HostLease} (h : ∀ host, (set host).key = host.key) :
    (Table.update sel set rows).map HostLease.key = rows.map HostLease.key :=
  Table.map_update _ fun host _ _ ↦ h host

theorem sameFrame_withProgressEvent (s : Store) (e : Execution) (correlationId : Uuid)
    (now : Instant) : SameFrame s (s.withProgressEvent e correlationId now) :=
  ⟨rfl, rfl, rfl, rfl, Nat.le_succ _⟩

theorem sameFrame_progressEvents {now : Instant} {ids : List Uuid}
    (h : ProgressEvents now ids s s') : SameFrame s s' := by
  induction h with
  | nil s => exact .refl s
  | cons e correlationId _ _ _ ih =>
    exact (sameFrame_withProgressEvent _ e correlationId now).trans ih

theorem sameFrame_cancelled (version : ℤ) (now : Instant) (e : Execution) (s : Store) :
    SameFrame s (s.cancelled version now e) :=
  ⟨map_fixed_update_executions fun _ ↦ rfl, map_fixed_update_pages fun _ ↦ rfl, rfl,
    map_key_update_hosts fun _ ↦ rfl, le_refl _⟩

theorem sameFrame_claimed (now leaseUntil nextAllowedAt : Instant) (lease : PageLease)
    (targetHostname : Utf8.ByteString) (s : Store) :
    SameFrame s (s.claimed now leaseUntil nextAllowedAt lease targetHostname) :=
  ⟨map_fixed_update_executions fun _ ↦ rfl, map_fixed_update_pages fun _ ↦ rfl, rfl,
    map_key_update_hosts fun _ ↦ rfl, le_refl _⟩

theorem sameFrame_extended (leaseUntil : Instant) (lease : PageLease) (s : Store) :
    SameFrame s (s.extended leaseUntil lease) :=
  ⟨rfl, map_fixed_update_pages fun _ ↦ rfl, rfl, map_key_update_hosts fun _ ↦ rfl, le_refl _⟩

theorem sameFrame_requeued (now : Instant) (lease : PageLease) (attemptCount : ℕ) (s : Store) :
    SameFrame s (s.requeued now lease attemptCount) :=
  ⟨map_fixed_update_executions fun _ ↦ rfl, map_fixed_update_pages fun _ ↦ rfl, rfl,
    map_key_update_hosts fun _ ↦ rfl, le_refl _⟩

theorem Execution.fixed_finish (now : Instant) (e : Execution) : (e.finish now).fixed = e.fixed := by
  unfold Execution.finish
  split_ifs <;> rfl

theorem sameFrame_published (now : Instant) (batch : AnalyticsBatch)
    (terminalStatus : TerminalStatus) (s : Store) :
    SameFrame s (s.published now batch terminalStatus) :=
  ⟨(map_fixed_update_executions fun e ↦ e.fixed_finish now).trans
      (map_fixed_update_executions fun _ ↦ rfl),
    map_fixed_update_pages fun _ ↦ rfl, map_fixed_update_rows fun _ ↦ rfl, rfl, le_refl _⟩

theorem sameFrame_reclaimed (clock : ReclaimClock) (locks : ReclaimLocks) (s : Store) :
    SameFrame s (s.reclaimed clock locks) := by
  have h₁ : SameFrame s (s.deliveriesReclaimed clock) :=
    ⟨rfl, rfl, map_fixed_update_rows fun _ ↦ rfl, rfl, le_refl _⟩
  have h₂ : ∀ s : Store, SameFrame s (s.leasesReclaimed clock locks) := fun s ↦
    ⟨map_fixed_update_executions fun _ ↦ rfl, map_fixed_update_pages fun _ ↦ rfl, rfl, rfl,
      le_refl _⟩
  have h₃ : ∀ s : Store, SameFrame s (s.deadlinesExpired clock locks) := fun s ↦
    ⟨map_fixed_update_executions fun _ ↦ rfl, map_fixed_update_pages fun _ ↦ rfl, rfl, rfl,
      le_refl _⟩
  have h₄ : ∀ s : Store, SameFrame s (s.hostsReleased clock) := fun s ↦
    ⟨rfl, rfl, rfl, map_key_update_hosts fun _ ↦ rfl, le_refl _⟩
  have h₅ : ∀ s : Store, SameFrame s (s.finishedTerminalized clock.terminal) := fun s ↦
    ⟨map_fixed_update_executions fun _ ↦ rfl, rfl, rfl, rfl, le_refl _⟩
  exact (((h₁.trans (h₂ _)).trans (h₃ _)).trans (h₄ _)).trans (h₅ _)

/-! ### Insertions -/

theorem nodup_slots_started (hostname : Utf8.ByteString) (now : Instant) (hosts : List HostLease)
    (h : (hosts.map HostLease.key).Nodup) :
    ((hosts ++ missingSlots env hostname now hosts).map HostLease.key).Nodup := by
  rw [List.map_append, List.nodup_append]
  refine ⟨h, ?_, ?_⟩
  · refine List.Nodup.map_on ?_ (List.Nodup.filter _ (List.Nodup.map ?_ List.nodup_range))
    · intro host hhost other hother hkey
      obtain ⟨index, -, rfl⟩ := List.mem_map.1 (List.mem_of_mem_filter hhost)
      obtain ⟨index', -, rfl⟩ := List.mem_map.1 (List.mem_of_mem_filter hother)
      have hslot : index + 1 = index' + 1 := (Prod.mk.inj hkey).2
      rw [Nat.succ.inj hslot]
    · intro index index' heq
      simpa using congrArg HostLease.slotNo heq
  · rintro _ hmem _ hmem' rfl
    obtain ⟨host, hhost, hkey⟩ := List.mem_map.1 hmem
    obtain ⟨slot, hslot, hkey'⟩ := List.mem_map.1 hmem'
    have hall := (List.mem_filter.1 hslot).2
    obtain ⟨hname, hno⟩ := Prod.mk.inj (hkey.trans hkey'.symm)
    have hother := List.all_eq_true.1 hall host hhost
    simp [hname, hno] at hother

/-- Starting an execution keeps every row. -/
theorem persists_started (now receivedAt : Instant) (envelope : ScanCommandEnvelope)
    (normalizedURL : Utf8.ByteString) (s : Store) :
    Persists s (s.started env now receivedAt envelope normalizedURL) :=
  ⟨fun e he ↦ ⟨e, List.mem_append_left _ he, rfl⟩,
    fun page hpage ↦ ⟨page, List.mem_append_left _ hpage, rfl⟩,
    fun row hrow ↦ ⟨row, hrow, rfl⟩, Nat.le_add_right _ 2⟩

/-- Starting an execution for a new scan keeps the keys. -/
theorem Keyed.started (hkeyed : Keyed s) {now receivedAt : Instant}
    {envelope : ScanCommandEnvelope} {normalizedURL : Utf8.ByteString}
    (hnew : ∀ e ∈ s.executions, e.scanId ≠ envelope.payload.scanId) :
    Keyed (s.started env now receivedAt envelope normalizedURL) where
  executionIds := by
    rw [Store.started, List.map_append, List.nodup_append]
    refine ⟨hkeyed.executionIds, List.nodup_singleton _, ?_⟩
    rintro _ hmem _ hmem' rfl
    obtain ⟨e, he, hid⟩ := List.mem_map.1 hmem
    have hfresh := hkeyed.executionFresh e he
    rw [hid, List.mem_singleton.1 hmem'] at hfresh
    exact lt_irrefl _ hfresh
  scanIds := by
    rw [Store.started, List.map_append, List.nodup_append]
    refine ⟨hkeyed.scanIds, List.nodup_singleton _, ?_⟩
    rintro _ hmem _ hmem' rfl
    obtain ⟨e, he, hid⟩ := List.mem_map.1 hmem
    exact hnew e he (hid.trans (List.mem_singleton.1 hmem'))
  pageIds := by
    rw [Store.started, List.map_append, List.nodup_append]
    refine ⟨hkeyed.pageIds, List.nodup_singleton _, ?_⟩
    rintro _ hmem _ hmem' rfl
    obtain ⟨page, hpage, hid⟩ := List.mem_map.1 hmem
    have hfresh := hkeyed.pageFresh page hpage
    rw [hid, List.mem_singleton.1 hmem'] at hfresh
    exact absurd hfresh (Nat.not_lt.2 (Nat.le_succ _))
  rowIds := hkeyed.rowIds
  slots := nodup_slots_started _ now s.hostLeases hkeyed.slots
  executionFresh e he := by
    rcases List.mem_append.1 he with he | he
    · exact (hkeyed.executionFresh e he).trans_le (Nat.le_add_right _ 2)
    · rw [List.mem_singleton.1 he]
      exact Nat.lt_add_of_pos_right (by decide)
  pageFresh page hpage := by
    rcases List.mem_append.1 hpage with hpage | hpage
    · exact (hkeyed.pageFresh page hpage).trans_le (Nat.le_add_right _ 2)
    · rw [List.mem_singleton.1 hpage]
      exact Nat.lt_succ_self _
  rowFresh row hrow := (hkeyed.rowFresh row hrow).trans_le (Nat.le_add_right _ 2)
  pageExecution page hpage := by
    rcases List.mem_append.1 hpage with hpage | hpage
    · obtain ⟨e, he, hof⟩ := hkeyed.pageExecution page hpage
      exact ⟨e, List.mem_append_left _ he, hof⟩
    · refine ⟨_, List.mem_append_right _ (List.mem_singleton_self _), ?_⟩
      rw [List.mem_singleton.1 hpage]
      simp [Page.isOf, seedPage, newExecution]
  rowPage row hrow := by
    obtain ⟨page, hpage, hrest⟩ := hkeyed.rowPage row hrow
    exact ⟨page, List.mem_append_left _ hpage, hrest⟩

/-! ### Leases and batches -/

/-- What a lease that was once given out says about the store: its page and the execution of the
page, with the columns that never change. -/
def Leased (s : Store) (lease : PageLease) : Prop :=
  ∃ e ∈ s.executions, ∃ page ∈ s.pages, page.isOf e = true ∧ lease.executionId = e.id ∧
    lease.scanId = e.scanId ∧ lease.ownerId = e.ownerId ∧ lease.maxPages = e.maxPages ∧
    lease.pageId = page.id ∧ lease.retentionMonth = page.retentionMonth ∧
    lease.hostname = page.hostname ∧ lease.leaseOwner < s.nextUuid

/-- What a batch that was once given out says about the store: its outbox row, with the columns
that never change. -/
def Taken (s : Store) (batch : AnalyticsBatch) : Prop :=
  ∃ row ∈ s.analyticsOutbox, batch.id = row.id ∧ batch.retentionMonth = row.retentionMonth ∧
    batch.executionId = row.executionId ∧ batch.ownerId = row.ownerId ∧
    batch.pageId = row.pageId ∧ batch.resultVersion = row.resultVersion ∧
    batch.payloadSHA256 = row.payloadSHA256

theorem Leased.persists {lease : PageLease} (h : Persists s s') (hlease : Leased s lease) :
    Leased s' lease := by
  obtain ⟨e, he, page, hpage, hof, hexecution, hscan, howner, hmax, hid, hmonth, hhost, hfresh⟩ :=
    hlease
  obtain ⟨e', he', heq⟩ := h.executions e he
  obtain ⟨page', hpage', heq'⟩ := h.pages page hpage
  obtain ⟨eid, escan, eowner, -, emax, -⟩ := Execution.of_fixed_eq heq
  obtain ⟨pid, pmonth, -, -, phost, -⟩ := Page.of_fixed_eq heq'
  refine ⟨e', he', page', hpage', (Page.isOf_congr heq' heq).trans hof, ?_, ?_, ?_, ?_, ?_, ?_, ?_,
    hfresh.trans_le h.nextUuid⟩
  · rw [hexecution, eid]
  · rw [hscan, escan]
  · rw [howner, eowner]
  · rw [hmax, emax]
  · rw [hid, pid]
  · rw [hmonth, pmonth]
  · rw [hhost, phost]

theorem Taken.persists {batch : AnalyticsBatch} (h : Persists s s') (hbatch : Taken s batch) :
    Taken s' batch := by
  obtain ⟨row, hrow, hid, hmonth, hexecution, howner, hpage, hversion, hsha⟩ := hbatch
  obtain ⟨row', hrow', heq⟩ := h.rows row hrow
  obtain ⟨rid, rmonth, rexecution, rowner, rpage, rversion, rsha⟩ := AnalyticsOutboxRow.of_fixed_eq heq
  refine ⟨row', hrow', ?_, ?_, ?_, ?_, ?_, ?_, ?_⟩
  · rw [hid, rid]
  · rw [hmonth, rmonth]
  · rw [hexecution, rexecution]
  · rw [howner, rowner]
  · rw [hpage, rpage]
  · rw [hversion, rversion]
  · rw [hsha, rsha]

/-- Keys, and everything the workers hold. -/
structure System.Keyed (sys : System) : Prop where
  store : Crawler.Keyed sys.store
  leases : ∀ lease ∈ sys.leases, Leased sys.store lease
  batches : ∀ batch ∈ sys.batches, Taken sys.store batch

/-- Pages with the same identifier are the same page. -/
theorem Keyed.page_eq (h : Keyed s) {page page' : Page} (hpage : page ∈ s.pages)
    (hpage' : page' ∈ s.pages) (hid : page.id = page'.id) : page = page' :=
  Table.eq_of_key_eq h.pageIds hpage hpage' hid

/-- Executions with the same identifier are the same execution. -/
theorem Keyed.execution_eq (h : Keyed s) {e e' : Execution} (he : e ∈ s.executions)
    (he' : e' ∈ s.executions) (hid : e.id = e'.id) : e = e' :=
  Table.eq_of_key_eq h.executionIds he he' hid

/-- Staging a result keeps every row. -/
theorem persists_staged {now : Instant} {lease : PageLease} {result : PageResult}
    {resultVersion : ℕ} {payload : Utf8.ByteString} {added : List Page} {outboxId : Uuid}
    (hadded : Discovered lease now s.nextUuid outboxId added) :
    Persists s (s.staged env now lease result resultVersion payload added outboxId) := by
  have hexecutions : (s.staged env now lease result resultVersion payload added
      outboxId).executions.map Execution.fixed = s.executions.map Execution.fixed :=
    map_fixed_update_executions fun _ ↦ rfl
  have hpages : (Table.update (Page.hasKey lease.retentionMonth lease.pageId)
      (Page.stage result.terminalStatus) s.pages).map Page.fixed = s.pages.map Page.fixed :=
    map_fixed_update_pages fun _ ↦ rfl
  refine ⟨fun e he ↦ ?_, fun page hpage ↦ ?_, fun row hrow ↦ ?_, hadded.le.trans (Nat.le_succ _)⟩
  · exact exists_mem_of_map_eq hexecutions he
  · obtain ⟨page', hpage', heq⟩ := exists_mem_of_map_eq hpages hpage
    exact ⟨page', List.mem_append_left _ hpage', heq⟩
  · exact ⟨row, List.mem_append_left _ hrow, rfl⟩

/-- Staging the result of a lease keeps the keys. -/
theorem Keyed.staged (hkeyed : Keyed s) {now : Instant} {lease : PageLease} {result : PageResult}
    {resultVersion : ℕ} {payload : Utf8.ByteString} {added : List Page} {outboxId : Uuid}
    (hlease : Leased s lease) (hadded : Discovered lease now s.nextUuid outboxId added) :
    Keyed (s.staged env now lease result resultVersion payload added outboxId) := by
  have hexecutions : (s.staged env now lease result resultVersion payload added
      outboxId).executions.map Execution.fixed = s.executions.map Execution.fixed :=
    map_fixed_update_executions fun _ ↦ rfl
  have hpages : (Table.update (Page.hasKey lease.retentionMonth lease.pageId)
      (Page.stage result.terminalStatus) s.pages).map Page.fixed = s.pages.map Page.fixed :=
    map_fixed_update_pages fun _ ↦ rfl
  obtain ⟨e, he, page, hpage, hof, hexecution, -, howner, -, hid, hmonth, -⟩ := hlease
  obtain ⟨e', he', heq'⟩ := exists_mem_of_map_eq hexecutions he
  have hsucc : s.nextUuid ≤ outboxId + 1 := hadded.le.trans (Nat.le_succ _)
  refine ⟨?_, ?_, ?_, ?_, ?_, ?_, ?_, ?_, ?_, ?_⟩
  · rw [map_of_map_fixed Execution.fixed Execution.id (fun _ ↦ rfl) hexecutions]
    exact hkeyed.executionIds
  · rw [map_of_map_fixed Execution.fixed Execution.scanId (fun _ ↦ rfl) hexecutions]
    exact hkeyed.scanIds
  · rw [Store.staged, List.map_append,
      map_of_map_fixed Page.fixed Page.id (fun _ ↦ rfl) hpages, List.nodup_append]
    refine ⟨hkeyed.pageIds, hadded.nodup, ?_⟩
    rintro _ hmem _ hmem' rfl
    obtain ⟨page', hpage', hid'⟩ := List.mem_map.1 hmem
    obtain ⟨new, hnew, hid''⟩ := List.mem_map.1 hmem'
    have hfresh := hkeyed.pageFresh page' hpage'
    rw [hid', ← hid''] at hfresh
    exact absurd hfresh (Nat.not_lt.2 (hadded.fresh new hnew).1)
  · rw [Store.staged, List.map_append, List.nodup_append]
    refine ⟨hkeyed.rowIds, List.nodup_singleton _, ?_⟩
    rintro _ hmem _ hmem' rfl
    obtain ⟨row, hrow, hid'⟩ := List.mem_map.1 hmem
    have hfresh := hkeyed.rowFresh row hrow
    rw [hid', List.mem_singleton.1 hmem'] at hfresh
    exact absurd hfresh (Nat.not_lt.2 hadded.le)
  · have hhosts : (Table.update (HostLease.isLeasedUnder lease) HostLease.release
        s.hostLeases).map HostLease.key = s.hostLeases.map HostLease.key :=
      map_key_update_hosts fun _ ↦ rfl
    exact hhosts ▸ hkeyed.slots
  · intro e he
    obtain ⟨e₀, he₀, heq⟩ := exists_mem_of_map_eq hexecutions.symm he
    rw [← (Execution.of_fixed_eq heq).1]
    exact (hkeyed.executionFresh e₀ he₀).trans_le hsucc
  · intro page' hpage'
    rcases List.mem_append.1 hpage' with hpage' | hpage'
    · obtain ⟨page₀, hpage₀, heq⟩ := exists_mem_of_map_eq hpages.symm hpage'
      rw [← (Page.of_fixed_eq heq).1]
      exact (hkeyed.pageFresh page₀ hpage₀).trans_le hsucc
    · exact (hadded.fresh page' hpage').2.trans_le (Nat.le_succ _)
  · intro row hrow
    rcases List.mem_append.1 hrow with hrow | hrow
    · exact (hkeyed.rowFresh row hrow).trans_le hsucc
    · rw [List.mem_singleton.1 hrow]
      exact Nat.lt_succ_self _
  · intro page' hpage'
    rcases List.mem_append.1 hpage' with hpage' | hpage'
    · obtain ⟨page₀, hpage₀, heq⟩ := exists_mem_of_map_eq hpages.symm hpage'
      obtain ⟨e₀, he₀, hof₀⟩ := hkeyed.pageExecution page₀ hpage₀
      obtain ⟨e₁, he₁, heq₁⟩ := exists_mem_of_map_eq hexecutions he₀
      exact ⟨e₁, he₁, (Page.isOf_congr heq.symm heq₁).trans hof₀⟩
    · obtain ⟨url, hshape⟩ := hadded.shape page' hpage'
      refine ⟨e', he', ?_⟩
      obtain ⟨eid, -, eowner, emonth, -⟩ := Execution.of_fixed_eq heq'
      simp only [Page.isOf, Bool.and_eq_true, decide_eq_true_eq] at hof
      rw [hshape]
      simp only [Page.isOf, discoveredPage, Bool.and_eq_true]
      refine ⟨⟨decide_eq_true ?_, decide_eq_true ?_⟩, decide_eq_true ?_⟩
      · exact hexecution.trans eid.symm
      · exact howner.trans eowner.symm
      · exact (hmonth.trans hof.2).trans emonth.symm
  · intro row hrow
    rcases List.mem_append.1 hrow with hrow | hrow
    · obtain ⟨page₀, hpage₀, hid₀, hmonth₀, hexecution₀, howner₀⟩ := hkeyed.rowPage row hrow
      obtain ⟨page₁, hpage₁, heq⟩ := exists_mem_of_map_eq hpages hpage₀
      obtain ⟨pid, pmonth, pexecution, powner, -⟩ := Page.of_fixed_eq heq
      exact ⟨page₁, List.mem_append_left _ hpage₁, pid.trans hid₀, pmonth.trans hmonth₀,
        pexecution.trans hexecution₀, powner.trans howner₀⟩
    · obtain ⟨page₁, hpage₁, heq⟩ := exists_mem_of_map_eq hpages hpage
      obtain ⟨pid, pmonth, pexecution, powner, -⟩ := Page.of_fixed_eq heq
      simp only [Page.isOf, Bool.and_eq_true, decide_eq_true_eq] at hof
      rw [List.mem_singleton.1 hrow]
      exact ⟨page₁, List.mem_append_left _ hpage₁, pid.trans hid.symm, pmonth.trans hmonth.symm,
        (pexecution.trans hof.1.1).trans hexecution.symm,
        (powner.trans hof.1.2).trans howner.symm⟩

/-! ### Every run -/

theorem sameFrame_withInbox (s : Store) (message : InboxMessage) :
    SameFrame s (s.withInbox message) :=
  ⟨rfl, rfl, rfl, rfl, le_refl _⟩

/-- The lease of a claim is about the rows that the claim found. -/
theorem leased_newLease {now : Instant} {locks : ClaimLocks} {e : Execution} {host : HostLease}
    {page : Page} {correlationId : Uuid}
    (h : claimRows env now locks s = some (e, host, page, correlationId)) (hs : Persists s s')
    (hfresh : s.nextUuid < s'.nextUuid) :
    Leased s' (newLease s.nextUuid e host page correlationId) := by
  obtain ⟨he, -, hpage, -, -, -, -, -, hof, -⟩ := claimRows_spec h
  obtain ⟨e', he', heq⟩ := hs.executions e he
  obtain ⟨page', hpage', heq'⟩ := hs.pages page hpage
  obtain ⟨eid, escan, eowner, -, emax, -⟩ := Execution.of_fixed_eq heq
  obtain ⟨pid, pmonth, -, -, phost, -⟩ := Page.of_fixed_eq heq'
  have hkey := hof
  simp only [Page.isOf, Bool.and_eq_true, decide_eq_true_eq] at hkey
  exact ⟨e', he', page', hpage', (Page.isOf_congr heq' heq).trans hof, hkey.1.1.trans eid.symm,
    escan.symm, hkey.1.2.trans eowner.symm, emax.symm, pid.symm, pmonth.symm, phost.symm, hfresh⟩

/-- A batch is about the row that the worker read. -/
theorem taken_batch {row : AnalyticsOutboxRow} (hrow : row ∈ s.analyticsOutbox) (workerId : Uuid) :
    Taken s (row.batch workerId) :=
  ⟨row, hrow, rfl, rfl, rfl, rfl, rfl, rfl, rfl⟩

/-- What the workers hold stays about rows that exist. -/
theorem System.Keyed.of_persists {sys sys' : System} (h : sys.Keyed)
    (hstore : Crawler.Keyed sys'.store) (hpersists : Persists sys.store sys'.store)
    (hleases : ∀ lease ∈ sys'.leases, lease ∈ sys.leases ∨ Leased sys'.store lease)
    (hbatches : ∀ batch ∈ sys'.batches, batch ∈ sys.batches ∨ Taken sys'.store batch) :
    sys'.Keyed where
  store := hstore
  leases lease hlease := by
    rcases hleases lease hlease with hold | hnew
    · exact (h.leases lease hold).persists hpersists
    · exact hnew
  batches batch hbatch := by
    rcases hbatches batch hbatch with hold | hnew
    · exact (h.batches batch hold).persists hpersists
    · exact hnew

/-- The empty store has no rows to confuse. -/
theorem System.keyed_init : System.Keyed {} :=
  ⟨⟨List.nodup_nil, List.nodup_nil, List.nodup_nil, List.nodup_nil, List.nodup_nil,
    by simp, by simp, by simp, by simp, by simp⟩, by simp, by simp⟩

/-- What a transition does to the rows: it keeps their frame, or starts an execution, or adds the
pages that a result discovered. -/
inductive FrameChange (env : Env) (sys : System) (s' : Store) : Prop
  | same (h : SameFrame sys.store s')
  | started (now receivedAt : Instant) (envelope : ScanCommandEnvelope)
      (normalizedURL : Utf8.ByteString) (hvalid : envelope.validate env = [])
      (hnew : ∀ e ∈ sys.store.executions, e.scanId ≠ envelope.payload.scanId)
      (hs' : s' = sys.store.started env now receivedAt envelope normalizedURL)
  | staged (now : Instant) (lease : PageLease) (result : PageResult) (resultVersion : ℕ)
      (added : List Page) (payload : Utf8.ByteString) (outboxId : Uuid)
      (hlease : lease ∈ sys.leases)
      (hadded : Discovered lease now sys.store.nextUuid outboxId added)
      (hurls : added.map Page.normalizedURL =
        discoveredURLs env lease result.links.elements sys.store)
      (h : SameFrame (sys.store.staged env now lease result resultVersion payload added outboxId)
        s')

/-- Every transition changes the rows in one of the three ways. -/
theorem Transition.frameChange {sys sys' : System} (h : Transition env sys sys') :
    FrameChange env sys sys'.store := by
  obtain ⟨_, h⟩ := h
  cases h with
  | unchanged => exact .same (.refl _)
  | idle => exact .same ⟨rfl, rfl, rfl, rfl, Nat.le_succ _⟩
  | stale message => exact .same (sameFrame_withInbox _ message)
  | started now receivedAt envelope url hvalid hnew =>
    exact .started now receivedAt envelope url hvalid hnew rfl
  | cancelled now receivedAt envelope e e' =>
    exact .same (((sameFrame_cancelled _ now e _).trans
      (sameFrame_withProgressEvent _ e' _ now)).trans (sameFrame_withInbox _ _))
  | claimed now leaseUntil hostDelay locks e host page correlationId e' =>
    refine .same (SameFrame.trans ?_ (sameFrame_withProgressEvent _ e' correlationId now))
    have h := sameFrame_claimed now leaseUntil (now + hostDelay)
      (newLease sys.store.nextUuid e host page correlationId) e.targetHostname sys.store
    exact ⟨h.executions, h.pages, h.rows, h.hosts, Nat.le_succ _⟩
  | extended leaseUntil lease => exact .same (sameFrame_extended leaseUntil lease _)
  | requeued now lease _ page e =>
    exact .same ((sameFrame_requeued now lease page.attemptCount _).trans
      (sameFrame_withProgressEvent _ e lease.correlationId now))
  | staged now lease result page added payload outboxId e hlease _ _ _ _ _ hadded _ _ hurls =>
    exact .staged now lease result (page.resultVersion + 1) added payload outboxId hlease hadded
      hurls (sameFrame_withProgressEvent _ e lease.correlationId now)
  | analyticsClaimed leaseUntil workerId ids rows hrows =>
    subst hrows
    exact .same ⟨rfl, rfl, map_fixed_update_rows fun _ ↦ rfl, rfl, le_refl _⟩
  | published now batch page terminalStatus e correlationId =>
    exact .same ((sameFrame_published now batch terminalStatus _).trans
      (sameFrame_withProgressEvent _ e correlationId now))
  | analyticsRetried now batch =>
    exact .same ⟨rfl, rfl, map_fixed_update_rows fun _ ↦ rfl, rfl, le_refl _⟩
  | eventsMoved => exact .same ⟨rfl, rfl, rfl, rfl, le_refl _⟩
  | reclaimed clock locks s' _ _ hevents =>
    exact .same ((sameFrame_reclaimed clock locks _).trans (sameFrame_progressEvents hevents))

/-- A transition keeps the keys and every row. -/
theorem Transition.keyed {sys sys' : System} (h : Transition env sys sys') (hkeyed : sys.Keyed) :
    Crawler.Keyed sys'.store ∧ Persists sys.store sys'.store := by
  cases h.frameChange with
  | same h => exact ⟨hkeyed.store.of_sameFrame h, h.persists⟩
  | started now receivedAt envelope url hvalid hnew hs' =>
    rw [hs']
    exact ⟨hkeyed.store.started hnew, persists_started now receivedAt envelope url sys.store⟩
  | staged now lease result resultVersion added payload outboxId hlease hadded _ h =>
    exact ⟨(hkeyed.store.staged (hkeyed.leases lease hlease) hadded).of_sameFrame h,
      (persists_staged hadded).trans h.persists⟩

/-- Every transition keeps the keys and what the workers hold. -/
theorem Transition.system_keyed {sys sys' : System} (h : Transition env sys sys')
    (hkeyed : sys.Keyed) : sys'.Keyed := by
  obtain ⟨hstore, hpersists⟩ := h.keyed hkeyed
  refine hkeyed.of_persists hstore hpersists ?_ ?_
  · intro lease hlease
    obtain ⟨_, h⟩ := h
    cases h with
    | claimed now leaseUntil hostDelay locks e host page correlationId e' _ hrows =>
      rcases List.mem_cons.1 hlease with rfl | hold
      · refine .inr (leased_newLease hrows hpersists ?_)
        exact Nat.lt_succ_of_lt (Nat.lt_succ_self _)
      · exact .inl hold
    | _ => exact .inl hlease
  · intro batch hbatch
    obtain ⟨_, h⟩ := h
    cases h with
    | analyticsClaimed leaseUntil workerId ids rows hrows =>
      rcases List.mem_append.1 hbatch with hnew | hold
      · obtain ⟨row, hrow, rfl⟩ := List.mem_map.1 hnew
        exact .inr (taken_batch (List.mem_of_mem_filter hrow) workerId)
      · exact .inl hold
    | _ => exact .inl hbatch

/-- Keys and references hold after every run. -/
theorem keyed_after (env : Env) (actions : List Action) : (System.after env actions).Keyed :=
  after_invariant System.keyed_init (fun h hkeyed ↦ h.system_keyed hkeyed) actions

end WebLens.Crawler
