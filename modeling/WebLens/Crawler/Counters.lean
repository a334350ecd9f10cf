import WebLens.Crawler.Rows
import WebLens.Crawler.Sample

/-!
# Counter conservation

The counters of an execution are adjusted by hand in every transaction. `Conserved` says that they
agree with the pages, that they balance, and that an execution without outstanding pages is
terminal; `counters_conserved` proves it of every run.

A transaction moves pages from status to status. `pageCount_update` gives the effect of a move on
the number of pages in each status; each transaction then only has to show that it adds to each
counter what the move adds to the pages.
-/

set_option autoImplicit false
set_option relaxedAutoImplicit false

namespace WebLens.Crawler

open Lib

variable {env : Env} {s s' : Store}

/-! ### Counters and pages -/

/-- Whether the page is one of the execution in the status. -/
def Page.isIn (executionId : Uuid) (status : PageStatus) (page : Page) : Bool :=
  decide (page.executionId = executionId) && decide (page.status = status)

/-- The number of pages of an execution in a status. -/
def pageCount (pages : List Page) (executionId : Uuid) (status : PageStatus) : ℕ :=
  pages.countP (Page.isIn executionId status)

/-- The counters of every execution are the numbers of its pages. -/
def Counted (s : Store) : Prop :=
  ∀ e ∈ s.executions, ∀ status, e.count status = pageCount s.pages e.id status

/-- One when the condition holds, zero otherwise. -/
def indicator (condition : Prop) [Decidable condition] : ℤ :=
  if condition then 1 else 0

@[simp]
theorem indicator_true {condition : Prop} [Decidable condition] (h : condition) :
    indicator condition = 1 :=
  if_pos h

@[simp]
theorem indicator_false {condition : Prop} [Decidable condition] (h : ¬ condition) :
    indicator condition = 0 :=
  if_neg h

/-- The pages in a status after an update: those before, less the selected ones that were in it,
and the selected ones that are in it now. -/
theorem pageCount_update {sel : Page → Bool} {set : Page → Page} {pages : List Page} (id : Uuid)
    (status : PageStatus) :
    (pageCount (Table.update sel set pages) id status : ℤ) = pageCount pages id status -
      pages.countP (fun page ↦ sel page && page.isIn id status) +
      pages.countP (fun page ↦ sel page && (set page).isIn id status) := by
  have h := @Table.countP_update _ sel set pages (Page.isIn id status)
  simp only [pageCount]
  omega

/-- An update that keeps the executions and statuses of the pages keeps their numbers. -/
theorem pageCount_update_of_keep {sel : Page → Bool} (set : Page → Page) {pages : List Page}
    (hset : ∀ page, (set page).executionId = page.executionId ∧ (set page).status = page.status)
    (id : Uuid) (status : PageStatus) :
    pageCount (Table.update sel set pages) id status = pageCount pages id status := by
  have h : (fun page ↦ sel page && (set page).isIn id status) =
      fun page ↦ sel page && page.isIn id status := by
    funext page
    simp only [Page.isIn, hset page]
  have hcount := @pageCount_update sel set pages id status
  rw [h] at hcount
  omega

/-- The pages of an update that selects one page. -/
theorem countP_single (hkeyed : Keyed s) {page : Page} (hpage : page ∈ s.pages)
    {sel : Page → Bool} (hsel : ∀ other ∈ s.pages, sel other = true ↔ other = page)
    (p : Page → Bool) :
    (s.pages.countP fun other ↦ sel other && p other) = if p page then 1 else 0 := by
  rw [← Table.countP_key hkeyed.pageIds hpage p]
  refine List.countP_congr fun other hother ↦ ?_
  have hiff : sel other = true ↔ other.id = page.id :=
    (hsel other hother).trans
      ⟨fun h ↦ h ▸ rfl, fun h ↦ hkeyed.page_eq hother hpage h⟩
  simp [hiff]

/-- Moving one page from a status to another. -/
theorem pageCount_move (hkeyed : Keyed s) {page : Page} (hpage : page ∈ s.pages)
    {sel : Page → Bool} {set : Page → Page}
    (hsel : ∀ other ∈ s.pages, sel other = true ↔ other = page)
    (hset : (set page).executionId = page.executionId) (id : Uuid) (status : PageStatus) :
    (pageCount (Table.update sel set s.pages) id status : ℤ) = pageCount s.pages id status -
      indicator (page.executionId = id ∧ page.status = status) +
      indicator (page.executionId = id ∧ (set page).status = status) := by
  rw [pageCount_update, countP_single hkeyed hpage hsel, countP_single hkeyed hpage hsel
    fun other ↦ (set other).isIn id status]
  simp only [Page.isIn, hset, Bool.and_eq_true, decide_eq_true_eq, indicator, Nat.cast_ite,
    Nat.cast_one, Nat.cast_zero]

/-- The executions after an update of one of them. -/
theorem mem_updateExecution {id : Uuid} {set : Execution → Execution} {executions : List Execution}
    {e' : Execution} :
    e' ∈ Table.update (fun e ↦ decide (e.id = id)) set executions ↔
      ∃ e ∈ executions, (e.id = id ∧ e' = set e) ∨ (e.id ≠ id ∧ e' = e) := by
  rw [Table.mem_update]
  refine exists_congr fun e ↦ and_congr_right fun _ ↦ ?_
  by_cases h : e.id = id
  · simp [h, eq_comm]
  · simp [h, eq_comm]

/-- Moving one page, and the counters of its execution with it. -/
theorem Counted.move (hcounted : Counted s) (hkeyed : Keyed s) (set : Page → Page)
    (added : List Page) (setExecution : Execution → Execution) {page : Page}
    (hpage : page ∈ s.pages) {sel : Page → Bool} {id : Uuid} (hid : page.executionId = id)
    (hsel : ∀ other ∈ s.pages, sel other = true ↔ other = page)
    (hset : (set page).executionId = page.executionId)
    (hadded : ∀ new ∈ added, new.executionId = id ∧ new.status = .queued)
    (hexecution : ∀ e, (setExecution e).id = e.id ∧ ∀ status, (setExecution e).count status =
      e.count status - indicator (page.status = status) + indicator ((set page).status = status) +
        added.length * indicator (.queued = status))
    (hexecutions : s'.executions =
      Table.update (fun e ↦ decide (e.id = id)) setExecution s.executions)
    (hpages : s'.pages = Table.update sel set s.pages ++ added) : Counted s' := by
  intro e' he' status
  have hnew : (pageCount added e'.id status : ℤ) =
      added.length * indicator (e'.id = id ∧ .queued = status) := by
    by_cases h : e'.id = id ∧ PageStatus.queued = status
    · rw [indicator_true h, mul_one, Nat.cast_inj]
      refine List.countP_eq_length.2 fun new hmem ↦ ?_
      simp [Page.isIn, (hadded new hmem).1, (hadded new hmem).2, h.1, h.2]
    · rw [indicator_false h, mul_zero, Nat.cast_eq_zero]
      refine List.countP_eq_zero.2 fun new hmem hin ↦ ?_
      simp only [Page.isIn, (hadded new hmem).1, (hadded new hmem).2, Bool.and_eq_true,
        decide_eq_true_eq] at hin
      exact h ⟨hin.1.symm, hin.2⟩
  have hcount : pageCount s'.pages e'.id status =
      pageCount (Table.update sel set s.pages) e'.id status + pageCount added e'.id status := by
    rw [hpages]
    exact List.countP_append
  rw [hcount, Nat.cast_add, pageCount_move hkeyed hpage hsel hset, hnew, hid]
  rw [hexecutions, mem_updateExecution] at he'
  obtain ⟨e, he, ⟨heid, rfl⟩ | ⟨heid, rfl⟩⟩ := he'
  · rw [(hexecution e).1, (hexecution e).2 status, hcounted e he status]
    simp only [heid, true_and]
  · rw [hcounted e' he status, indicator_false fun h ↦ heid h.1.symm,
      indicator_false fun h ↦ heid h.1.symm, indicator_false fun h ↦ heid h.1]
    ring

/-! ### Conservation -/

/-- Counters agree with pages, and every row is well formed. -/
structure Conserved (s : Store) : Prop where
  counted : Counted s
  pages : ∀ page ∈ s.pages, page.WellFormed
  executions : ∀ e ∈ s.executions, e.WellFormed

/-- An execution that is not terminal has a page left to work on. -/
def Live (s : Store) : Prop :=
  ∀ e ∈ s.executions, e.status.isTerminal = false → 0 < e.outstanding

theorem Counted.nonneg (h : Counted s) {e : Execution} (he : e ∈ s.executions)
    (status : PageStatus) : 0 ≤ e.count status := by
  rw [h e he status]
  exact Int.natCast_nonneg _

/-- The counter for the status of a page of the execution is positive. -/
theorem Counted.pos (h : Counted s) {e : Execution} (he : e ∈ s.executions) {page : Page}
    (hpage : page ∈ s.pages) (hid : page.executionId = e.id) : 0 < e.count page.status := by
  rw [h e he page.status]
  refine Int.natCast_pos.2 (List.countP_pos_iff.2 ⟨page, hpage, ?_⟩)
  simp [Page.isIn, hid]

/-- Every execution after a transaction is one before it, after some steps. -/
def Evolves (s s' : Store) : Prop :=
  ∀ e' ∈ s'.executions, ∃ e ∈ s.executions, ExecutionSteps e e'

theorem Evolves.refl (s : Store) : Evolves s s :=
  fun e he ↦ ⟨e, he, .refl⟩

theorem Evolves.trans {s₁ s₂ s₃ : Store} (h₁ : Evolves s₁ s₂) (h₂ : Evolves s₂ s₃) :
    Evolves s₁ s₃ := by
  intro e₃ he₃
  obtain ⟨e₂, he₂, hsteps₂⟩ := h₂ e₃ he₃
  obtain ⟨e₁, he₁, hsteps₁⟩ := h₁ e₂ he₂
  exact ⟨e₁, he₁, hsteps₁.trans hsteps₂⟩

theorem Evolves.wellFormed (h : Evolves s s') (hs : ∀ e ∈ s.executions, e.WellFormed) :
    ∀ e ∈ s'.executions, e.WellFormed := by
  intro e' he'
  obtain ⟨e, he, hsteps⟩ := h e' he'
  exact hsteps.wellFormed (hs e he)

/-- An update of one execution by steps. -/
theorem evolves_update {id : Uuid} {set : Execution → Execution}
    (hexecutions : s'.executions = Table.update (fun e ↦ decide (e.id = id)) set s.executions)
    (hset : ∀ e ∈ s.executions, e.id = id → ExecutionSteps e (set e)) : Evolves s s' := by
  intro e' he'
  rw [hexecutions, mem_updateExecution] at he'
  obtain ⟨e, he, ⟨hid, rfl⟩ | ⟨-, rfl⟩⟩ := he'
  · exact ⟨e, he, hset e he hid⟩
  · exact ⟨e', he, .refl⟩

/-- The key of a leased page selects that page. -/
theorem hasKey_iff_of_keyed (hkeyed : Keyed s) {page : Page} (hpage : page ∈ s.pages)
    {month : Instant} {id : Uuid} (hkey : page.hasKey month id = true) :
    ∀ other ∈ s.pages, other.hasKey month id = true ↔ other = page := by
  intro other hother
  refine ⟨fun h ↦ hkeyed.page_eq hother hpage ?_, fun h ↦ h ▸ hkey⟩
  simp only [Page.hasKey, Bool.and_eq_true, decide_eq_true_eq] at h hkey
  exact h.2.trans hkey.2.symm

/-- The key of a page with the status it has selects that page. -/
theorem hasKey_and_status_iff (hkeyed : Keyed s) {page : Page} (hpage : page ∈ s.pages)
    {month : Instant} {id : Uuid} {status : PageStatus} (hkey : page.hasKey month id = true)
    (hstatus : page.status = status) :
    ∀ other ∈ s.pages, (other.hasKey month id && decide (other.status = status)) = true ↔
      other = page := by
  intro other hother
  rw [Bool.and_eq_true, hasKey_iff_of_keyed hkeyed hpage hkey other hother, decide_eq_true_eq]
  exact ⟨fun h ↦ h.1, fun h ↦ ⟨h, h ▸ hstatus⟩⟩

/-- The execution of a queued or leased page is active. -/
theorem Conserved.isActive (h : Conserved s) {e : Execution} (he : e ∈ s.executions)
    {page : Page} (hpage : page ∈ s.pages) (hexecution : page.executionId = e.id)
    (hstatus : page.status = .queued ∨ page.status = .leased) : e.IsActive := by
  have hpos := h.counted.pos he hpage hexecution
  refine (h.executions e he).isActive ?_
  rcases hstatus with hstatus | hstatus <;> rw [hstatus] at hpos
  · exact .inl hpos
  · exact .inr hpos

theorem evolves_claimed (h : Conserved s) {now leaseUntil nextAllowedAt : Instant}
    {lease : PageLease} {targetHostname : Utf8.ByteString} {page : Page} (hpage : page ∈ s.pages)
    (hexecution : page.executionId = lease.executionId) (hstatus : page.status = .queued)
    (hroom : ∀ e ∈ s.executions, e.id = lease.executionId → e.leasedCount < e.maxConcurrency) :
    Evolves s (s.claimed now leaseUntil nextAllowedAt lease targetHostname) :=
  evolves_update rfl fun e he hid ↦ .single (.claimed now
    (h.isActive he hpage (hexecution.trans hid.symm) (.inl hstatus)) (hroom e he hid))

/-- The execution of a leased page has a lease. -/
theorem Conserved.leased_pos (h : Conserved s) {e : Execution} (he : e ∈ s.executions)
    {page : Page} (hpage : page ∈ s.pages) (hexecution : page.executionId = e.id)
    (hstatus : page.status = .leased) : 0 < e.leasedCount := by
  have hpos := h.counted.pos he hpage hexecution
  rwa [hstatus] at hpos

/-- A claim moves a page from the queue to a worker. -/
theorem Conserved.claimed (h : Conserved s) (hkeyed : Keyed s)
    {now leaseUntil nextAllowedAt : Instant} {lease : PageLease} {targetHostname : Utf8.ByteString}
    {page : Page} (hpage : page ∈ s.pages)
    (hkey : page.hasKey lease.retentionMonth lease.pageId = true)
    (hexecution : page.executionId = lease.executionId) (hstatus : page.status = .queued)
    (hroom : ∀ e ∈ s.executions, e.id = lease.executionId → e.leasedCount < e.maxConcurrency) :
    Conserved (s.claimed now leaseUntil nextAllowedAt lease targetHostname) where
  counted := by
    refine h.counted.move hkeyed (Page.claim lease leaseUntil) [] (Execution.claim now) hpage
      hexecution (hasKey_and_status_iff hkeyed hpage hkey hstatus) rfl (by simp)
      (fun e ↦ ⟨rfl, ?_⟩) rfl (List.append_nil _).symm
    intro status
    cases status <;> simp [Execution.count, Execution.claim, Page.claim, hstatus, indicator]
  pages := wellFormed_update h.pages fun other hother hsel ↦ by
    rw [Bool.and_eq_true, decide_eq_true_eq] at hsel
    exact (h.pages other hother).claim hsel.2 lease leaseUntil
  executions := (evolves_claimed h hpage hexecution hstatus hroom).wellFormed h.executions

/-- A heartbeat moves no page. -/
theorem Conserved.extended (h : Conserved s) (leaseUntil : Instant) (lease : PageLease) :
    Conserved (s.extended leaseUntil lease) where
  counted e he status := by
    rw [h.counted e he status]
    exact congrArg Nat.cast (pageCount_update_of_keep
      (fun page ↦ { page with leaseExpiresAt := some leaseUntil }) (fun _ ↦ ⟨rfl, rfl⟩) e.id
      status).symm
  pages := wellFormed_update h.pages fun other hother _ ↦
    ⟨(h.pages other hother).attempts, (h.pages other hother).queued,
      (h.pages other hother).pending, (h.pages other hother).owner,
      (h.pages other hother).unstaged, (h.pages other hother).version⟩
  executions := h.executions

theorem evolves_requeued (h : Conserved s) {now : Instant} {lease : PageLease} {attemptCount : ℕ}
    {page : Page} (hpage : page ∈ s.pages) (hexecution : page.executionId = lease.executionId)
    (hstatus : page.status = .leased) : Evolves s (s.requeued now lease attemptCount) :=
  evolves_update rfl fun _ he hid ↦ .single (.requeued now
    (h.isActive he hpage (hexecution.trans hid.symm) (.inr hstatus))
    (h.leased_pos he hpage (hexecution.trans hid.symm) hstatus))

/-- A transient failure moves a page from its worker back to the queue. -/
theorem Conserved.requeued (h : Conserved s) (hkeyed : Keyed s) {now : Instant} {lease : PageLease}
    {page : Page} (hpage : page ∈ s.pages)
    (hkey : page.hasKey lease.retentionMonth lease.pageId = true)
    (hexecution : page.executionId = lease.executionId) (hstatus : page.status = .leased)
    (hattempts : page.attemptCount < 3) :
    Conserved (s.requeued now lease page.attemptCount) where
  counted := by
    refine h.counted.move hkeyed (Page.requeue (now + pageRetryDelay page.attemptCount lease.pageId))
      [] (Execution.requeue now) hpage hexecution (hasKey_iff_of_keyed hkeyed hpage hkey) rfl
      (by simp) (fun e ↦ ⟨rfl, ?_⟩) rfl (List.append_nil _).symm
    intro status
    cases status <;> simp [Execution.count, Execution.requeue, Page.requeue, hstatus, indicator]
  pages := wellFormed_update h.pages fun other hother hsel ↦ by
    rw [(hasKey_iff_of_keyed hkeyed hpage hkey other hother).1 hsel]
    exact (h.pages page hpage).requeue hstatus hattempts _
  executions := (evolves_requeued h hpage hexecution hstatus).wellFormed h.executions

theorem evolves_staged (h : Conserved s) {now : Instant} {lease : PageLease} {result : PageResult}
    {resultVersion : ℕ} {payload : Utf8.ByteString} {added : List Page} {outboxId : Uuid}
    {page : Page} (hpage : page ∈ s.pages) (hexecution : page.executionId = lease.executionId)
    (hstatus : page.status = .leased)
    (hlimit : ∀ e ∈ s.executions, e.id = lease.executionId →
      e.discoveredCount + added.length ≤ e.maxPages) :
    Evolves s (s.staged env now lease result resultVersion payload added outboxId) :=
  evolves_update rfl fun e he hid ↦ .single (.staged added.length now
    (h.isActive he hpage (hexecution.trans hid.symm) (.inr hstatus)) (Int.natCast_nonneg _)
    (hlimit e he hid) (h.leased_pos he hpage (hexecution.trans hid.symm) hstatus))

/-- A result moves a page from its worker to persistence, and queues the pages it discovered. -/
theorem Conserved.staged (h : Conserved s) (hkeyed : Keyed s) {now : Instant} {lease : PageLease}
    {result : PageResult} {resultVersion : ℕ} {payload : Utf8.ByteString} {added : List Page}
    {outboxId : Uuid} {page : Page} (hpage : page ∈ s.pages)
    (hkey : page.hasKey lease.retentionMonth lease.pageId = true)
    (hexecution : page.executionId = lease.executionId) (hstatus : page.status = .leased)
    (hadded : Discovered lease now s.nextUuid outboxId added)
    (hlimit : ∀ e ∈ s.executions, e.id = lease.executionId →
      e.discoveredCount + added.length ≤ e.maxPages) :
    Conserved (s.staged env now lease result resultVersion payload added outboxId) where
  counted := by
    refine h.counted.move hkeyed (Page.stage result.terminalStatus) added
      (Execution.stage added.length now) hpage hexecution (hasKey_iff_of_keyed hkeyed hpage hkey)
      rfl ?_ (fun e ↦ ⟨rfl, ?_⟩) rfl rfl
    · intro new hnew
      obtain ⟨url, hshape⟩ := hadded.shape new hnew
      rw [hshape]
      exact ⟨rfl, rfl⟩
    · intro status
      cases status <;> simp [Execution.count, Execution.stage, Page.stage, hstatus, indicator]
  pages page' hpage' := by
    rcases List.mem_append.1 hpage' with hold | hnew
    · refine wellFormed_update h.pages (fun other hother hsel ↦ ?_) page' hold
      rw [(hasKey_iff_of_keyed hkeyed hpage hkey other hother).1 hsel]
      exact (h.pages page hpage).stage hstatus _
    · obtain ⟨url, hshape⟩ := hadded.shape page' hnew
      rw [hshape]
      exact discoveredPage_wellFormed lease url now _
  executions := (evolves_staged h hpage hexecution hstatus hlimit).wellFormed h.executions

/-- A batch is about a page of its execution. -/
theorem Taken.executionId {batch : AnalyticsBatch} (h : Taken s batch) (hkeyed : Keyed s)
    {page : Page} (hpage : page ∈ s.pages)
    (hkey : page.hasKey batch.retentionMonth batch.pageId = true) :
    page.executionId = batch.executionId := by
  obtain ⟨row, hrow, -, -, hexecution, -, hid, -⟩ := h
  obtain ⟨page', hpage', hid', -, hexecution', -⟩ := hkeyed.rowPage row hrow
  simp only [Page.hasKey, Bool.and_eq_true, decide_eq_true_eq] at hkey
  rw [hkeyed.page_eq hpage hpage' (hkey.2.trans (hid.trans hid'.symm)), hexecution', hexecution]

/-- A lease is about a page of its execution. -/
theorem Leased.executionId {lease : PageLease} (h : Leased s lease) (hkeyed : Keyed s)
    {page : Page} (hpage : page ∈ s.pages)
    (hkey : page.hasKey lease.retentionMonth lease.pageId = true) :
    page.executionId = lease.executionId := by
  obtain ⟨e, -, page', hpage', hof, hexecution, -, -, -, hid, -⟩ := h
  simp only [Page.hasKey, Bool.and_eq_true, decide_eq_true_eq] at hkey
  simp only [Page.isOf, Bool.and_eq_true, decide_eq_true_eq] at hof
  rw [hkeyed.page_eq hpage hpage' (hkey.2.trans hid), hof.1.1, hexecution]

theorem Execution.finish_id (e : Execution) (now : Instant) : (e.finish now).id = e.id := by
  unfold Execution.finish
  split <;> rfl

theorem Execution.finish_count (e : Execution) (now : Instant) (status : PageStatus) :
    (e.finish now).count status = e.count status := by
  unfold Execution.finish
  split
  · cases status <;> rfl
  · rfl

/-- Both updates of an execution by a delivery are one. -/
theorem published_executions (now : Instant) (batch : AnalyticsBatch)
    (terminalStatus : TerminalStatus) (s : Store) :
    (s.published now batch terminalStatus).executions =
      Table.update (fun e ↦ decide (e.id = batch.executionId))
        (fun e ↦ (e.publish terminalStatus now).finish now) s.executions :=
  Table.update_update fun _ ↦ rfl

/-- The execution of a page in persistence is not terminal. -/
theorem Conserved.not_terminal (h : Conserved s) {e : Execution} (he : e ∈ s.executions)
    {page : Page} (hpage : page ∈ s.pages) (hexecution : page.executionId = e.id)
    (hstatus : page.status = .persisting) : e.status.isTerminal = false := by
  have hpos := h.counted.pos he hpage hexecution
  rw [hstatus] at hpos
  exact (h.executions e he).not_terminal hpos

theorem evolves_published (h : Conserved s) {now : Instant} {batch : AnalyticsBatch}
    {terminalStatus : TerminalStatus} {page : Page} (hpage : page ∈ s.pages)
    (hexecution : page.executionId = batch.executionId) (hstatus : page.status = .persisting) :
    Evolves s (s.published now batch terminalStatus) := by
  refine evolves_update (published_executions now batch terminalStatus s) fun e he hid ↦ ?_
  have hactive := h.not_terminal he hpage (hexecution.trans hid.symm) hstatus
  have hpersisting := h.counted.pos he hpage (hexecution.trans hid.symm)
  rw [hstatus] at hpersisting
  have hpublish : ExecutionSteps e (e.publish terminalStatus now) :=
    .single (.published terminalStatus now hactive hpersisting)
  by_cases hfinished : (e.publish terminalStatus now).isFinished = true
  · exact hpublish.tail (.finished now hactive hfinished)
  · rw [Execution.finish, if_neg hfinished]
    exact hpublish

/-- A delivery moves a page from persistence to its terminal status. -/
theorem Conserved.published (h : Conserved s) (hkeyed : Keyed s) {now : Instant}
    {batch : AnalyticsBatch} {terminalStatus : TerminalStatus} (hbatch : Taken s batch)
    {page : Page} (hpage : page ∈ s.pages)
    (hkey : page.hasKey batch.retentionMonth batch.pageId = true)
    (hstatus : page.status = .persisting) : Conserved (s.published now batch terminalStatus) where
  counted := by
    refine h.counted.move hkeyed (Page.complete terminalStatus) []
      (fun e ↦ (e.publish terminalStatus now).finish now) hpage
      (hbatch.executionId hkeyed hpage hkey) (hasKey_and_status_iff hkeyed hpage hkey hstatus)
      rfl (by simp) (fun e ↦ ⟨Execution.finish_id _ _, fun status ↦ ?_⟩)
      (published_executions now batch terminalStatus s) (List.append_nil _).symm
    rw [Execution.finish_count]
    cases terminalStatus <;> cases status <;>
      simp [Execution.count, Execution.publish, Page.complete, TerminalStatus.toPageStatus,
        hstatus, indicator]
  pages := wellFormed_update h.pages fun other hother hsel ↦ by
    rw [Bool.and_eq_true, decide_eq_true_eq] at hsel
    exact (h.pages other hother).complete hsel.2 terminalStatus
  executions := (evolves_published h hpage (hbatch.executionId hkeyed hpage hkey)
    hstatus).wellFormed h.executions

/-- The selected pages of an execution with a property. -/
theorem countP_pagesOf (sel p : Page → Bool) (pages : List Page) (e : Execution) :
    (pagesOf (pages.filter sel) e).countP p =
      pages.countP fun page ↦ sel page && (decide (page.executionId = e.id) && p page) := by
  rw [pagesOf, List.countP_filter, List.countP_filter]
  refine List.countP_congr fun page _ ↦ ?_
  simp only [Bool.and_eq_true]
  tauto

theorem mem_pagesOf {pages : List Page} {e : Execution} {page : Page} :
    page ∈ pagesOf pages e ↔ page ∈ pages ∧ page.executionId = e.id := by
  simp [pagesOf, List.mem_filter]

/-- Moving many pages, and the counters of their executions with them. -/
theorem Counted.bulk (h : Counted s) (sel : Page → Bool) (set : Page → Page)
    (hset : ∀ page, (set page).executionId = page.executionId)
    (hpages : s'.pages = Table.update sel set s.pages)
    (hexecutions : ∀ e' ∈ s'.executions, ∃ e ∈ s.executions, e'.id = e.id ∧
      ∀ status, e'.count status = e.count status -
        (pagesOf (s.pages.filter sel) e).countP (fun page ↦ decide (page.status = status)) +
        (pagesOf (s.pages.filter sel) e).countP fun page ↦ decide ((set page).status = status)) :
    Counted s' := by
  intro e' he' status
  obtain ⟨e, he, hid, hcount⟩ := hexecutions e' he'
  rw [hcount, hpages, pageCount_update, h e he, hid, countP_pagesOf, countP_pagesOf]
  simp only [Page.isIn, hset]

/-- The pages that a cancellation cancels, in one of their statuses. -/
theorem Counted.cancellable (h : Counted s) {e : Execution} (he : e ∈ s.executions)
    {status : PageStatus} (hstatus : status = .queued ∨ status = .leased) :
    ((s.pages.filter (Page.isCancellable e.id)).countP (fun page ↦ decide (page.status = status)) :
      ℤ) = e.count status := by
  rw [h e he status, List.countP_filter, pageCount, Nat.cast_inj]
  refine List.countP_congr fun page _ ↦ ?_
  simp only [Page.isCancellable, Page.isIn, Bool.and_eq_true, Bool.or_eq_true, decide_eq_true_eq]
  rcases hstatus with rfl | rfl <;> tauto

theorem mem_cancellable {executionId : Uuid} {pages : List Page} {page : Page}
    (h : page ∈ pages.filter (Page.isCancellable executionId)) :
    page.executionId = executionId ∧ (page.status = .queued ∨ page.status = .leased) := by
  simpa [Page.isCancellable] using (List.mem_filter.1 h).2

/-- The number of pages that a cancellation cancels. -/
theorem Counted.length_cancellable (h : Counted s) {e : Execution} (he : e ∈ s.executions) :
    ((s.pages.filter (Page.isCancellable e.id)).length : ℤ) = e.queuedCount + e.leasedCount := by
  rw [List.length_eq_countP_add_countP fun page ↦ decide (page.status = .queued), Nat.cast_add,
    h.cancellable he (.inl rfl), ← show e.count .leased = e.leasedCount from rfl,
    ← h.cancellable he (.inr rfl)]
  refine congrArg₂ _ rfl (congrArg _ (List.countP_congr fun page hpage ↦ ?_))
  rcases (mem_cancellable hpage).2 with hstatus | hstatus <;> simp [hstatus]

/-- The executions after a cancellation of one of them. -/
theorem mem_cancelled (h : Counted s) (hkeyed : Keyed s) {e : Execution} (he : e ∈ s.executions)
    {version : ℤ} {now : Instant} {e' : Execution}
    (he' : e' ∈ (s.cancelled version now e).executions) :
    e' = e.cancel version e.queuedCount e.leasedCount now ∨ e' ∈ s.executions ∧ e'.id ≠ e.id := by
  obtain ⟨e₀, he₀, ⟨hid, rfl⟩ | ⟨hid, rfl⟩⟩ := mem_updateExecution.1 he'
  · obtain rfl := hkeyed.execution_eq he₀ he hid
    rw [h.cancellable he (.inl rfl), h.cancellable he (.inr rfl)]
    exact .inl rfl
  · exact .inr ⟨he₀, hid⟩

/-- A cancellation moves the queued and leased pages of an execution. -/
theorem Conserved.cancelled (h : Conserved s) (hkeyed : Keyed s) {e : Execution}
    (he : e ∈ s.executions) (version : ℤ) (now : Instant) :
    Conserved (s.cancelled version now e) := by
  refine ⟨h.counted.bulk (Page.isCancellable e.id) Page.cancel (fun _ ↦ rfl) rfl ?_,
    wellFormed_update h.pages fun other hother _ ↦ (h.pages other hother).cancel,
    fun e' he' ↦ ?_⟩
  swap
  · obtain rfl | ⟨he', -⟩ := mem_cancelled h.counted hkeyed he he'
    · exact (h.executions e he).cancel version now
    · exact h.executions e' he'
  intro e' he'
  obtain ⟨e₀, he₀, ⟨hid, rfl⟩ | ⟨hid, rfl⟩⟩ := mem_updateExecution.1 he'
  · obtain rfl := hkeyed.execution_eq he₀ he hid
    refine ⟨e₀, he, rfl, fun status ↦ ?_⟩
    have hqueued := h.counted.cancellable he (.inl rfl)
    have hleased := h.counted.cancellable he (.inr rfl)
    have hlength := h.counted.length_cancellable he
    have hall : pagesOf (s.pages.filter (Page.isCancellable e₀.id)) e₀ =
        s.pages.filter (Page.isCancellable e₀.id) :=
      List.filter_eq_self.2 fun page hpage ↦ decide_eq_true (mem_cancellable hpage).1
    have hnone : ∀ status, status ≠ .queued → status ≠ .leased →
        (s.pages.filter (Page.isCancellable e₀.id)).countP
          (fun page ↦ decide (page.status = status)) = 0 := by
      intro status hne hne'
      refine List.countP_eq_zero.2 fun page hpage heq ↦ ?_
      rcases (mem_cancellable hpage).2 with hstatus | hstatus
      · exact hne (by rw [← hstatus]; exact (of_decide_eq_true heq).symm)
      · exact hne' (by rw [← hstatus]; exact (of_decide_eq_true heq).symm)
    have harrive : ((s.pages.filter (Page.isCancellable e₀.id)).countP
        (fun page ↦ decide (page.cancel.status = status)) : ℤ) =
          if status = .cancelled then e₀.queuedCount + e₀.leasedCount else 0 := by
      split_ifs with hcancelled
      · rw [← hlength, Nat.cast_inj, List.countP_eq_length]
        intro page _
        simp [Page.cancel, hcancelled]
      · rw [Nat.cast_eq_zero, List.countP_eq_zero]
        intro page _ heq
        exact hcancelled (of_decide_eq_true heq).symm
    simp only [Execution.count] at hqueued hleased
    rw [hall, harrive]
    cases status <;> simp [Execution.count, Execution.cancel, hqueued, hleased, hnone]
    ring
  · refine ⟨e', he₀, rfl, fun status ↦ ?_⟩
    have hnone : pagesOf (s.pages.filter (Page.isCancellable e.id)) e' = [] := by
      refine List.filter_eq_nil_iff.2 fun page hpage heq ↦ hid ?_
      exact (of_decide_eq_true heq).symm.trans (mem_cancellable hpage).1
    simp [hnone]

/-- All of the pages have the status, or none of them has. -/
theorem countP_status_of_forall {pages : List Page} {status : PageStatus}
    (h : ∀ page ∈ pages, page.status = status) (status' : PageStatus) :
    (pages.countP (fun page ↦ decide (page.status = status')) : ℤ) =
      pages.length * indicator (status = status') := by
  by_cases heq : status = status'
  · rw [indicator_true heq, mul_one, Nat.cast_inj, List.countP_eq_length]
    exact fun page hpage ↦ decide_eq_true ((h page hpage).trans heq)
  · rw [indicator_false heq, mul_zero, Nat.cast_eq_zero, List.countP_eq_zero]
    exact fun page hpage hstatus ↦ heq ((h page hpage).symm.trans (of_decide_eq_true hstatus))

/-- The pages of an execution that a reclaim selects are leased. -/
theorem mem_reclaimed {clock : ReclaimClock} {locks : ReclaimLocks} {e : Execution} {page : Page}
    (h : page ∈ pagesOf (s.pages.filter (reclaimedPage clock locks s)) e) :
    page ∈ s.pages ∧ page.executionId = e.id ∧ page.status = .leased := by
  rw [mem_pagesOf, List.mem_filter] at h
  obtain ⟨⟨hmem, hsel⟩, hid⟩ := h
  simp only [reclaimedPage, Page.isExpired, Bool.and_eq_true, decide_eq_true_eq] at hsel
  exact ⟨hmem, hid, hsel.2.1⟩

/-- The pages of an execution that the deadline fails are queued. -/
theorem mem_overdue {clock : ReclaimClock} {locks : ReclaimLocks} {e : Execution} {page : Page}
    (h : page ∈ pagesOf (s.pages.filter (overduePage clock locks s)) e) :
    page ∈ s.pages ∧ page.executionId = e.id ∧ page.status = .queued := by
  rw [mem_pagesOf, List.mem_filter] at h
  obtain ⟨⟨hmem, hsel⟩, hid⟩ := h
  simp only [overduePage, Bool.and_eq_true, decide_eq_true_eq] at hsel
  exact ⟨hmem, hid, hsel.2⟩

theorem evolves_leasesReclaimed (h : Conserved s) (clock : ReclaimClock) (locks : ReclaimLocks) :
    Evolves s (s.leasesReclaimed clock locks) := by
  intro e' he'
  obtain ⟨e, he, rfl⟩ := Table.mem_update.1 he'
  refine ⟨e, he, ?_⟩
  split_ifs with hsome
  · rw [Bool.not_eq_true', List.isEmpty_eq_false_iff] at hsome
    obtain ⟨page, hpage⟩ := List.exists_mem_of_ne_nil _ hsome
    obtain ⟨hmem, hid, hstatus⟩ := mem_reclaimed hpage
    refine .single (.expired _ _ _ _ (h.isActive he hmem hid (.inr hstatus)) ?_
      (Int.natCast_nonneg _) (Int.natCast_nonneg _) (h.leased_pos he hmem hid hstatus))
    rw [List.length_eq_countP_add_countP fun page : Page ↦ decide (page.attemptCount < 3),
      Nat.cast_add]
    refine congrArg₂ _ rfl (congrArg _ (List.countP_congr fun page _ ↦ ?_))
    simp
  · exact .refl

/-- Reclaiming moves pages with expired leases to the queue, or fails them. -/
theorem Conserved.leasesReclaimed (h : Conserved s) (clock : ReclaimClock) (locks : ReclaimLocks) :
    Conserved (s.leasesReclaimed clock locks) := by
  refine ⟨h.counted.bulk (reclaimedPage clock locks s) (Page.expire clock.leaseUpdate)
    (fun _ ↦ rfl) rfl ?_, wellFormed_update h.pages fun page hpage hsel ↦
      (h.pages page hpage).expire ?_ _, (evolves_leasesReclaimed h clock locks).wellFormed
      h.executions⟩
  · intro e' he'
    obtain ⟨e, he, rfl⟩ := Table.mem_update.1 he'
    have hlost := countP_status_of_forall fun page
      (hpage : page ∈ pagesOf (s.pages.filter (reclaimedPage clock locks s)) e) ↦
        (mem_reclaimed hpage).2.2
    refine ⟨e, he, by split_ifs <;> rfl, fun status ↦ ?_⟩
    rw [hlost]
    split_ifs with hsome
    · cases status <;>
        simp [Execution.count, Execution.expire, Page.expire, indicator, ite_eq_iff]
    · rw [Bool.not_eq_true, Bool.not_eq_false', List.isEmpty_iff] at hsome
      simp [hsome]
  · simp only [reclaimedPage, Page.isExpired, Bool.and_eq_true, decide_eq_true_eq] at hsel
    exact hsel.2.1

theorem evolves_deadlinesExpired (h : Conserved s) (clock : ReclaimClock) (locks : ReclaimLocks) :
    Evolves s (s.deadlinesExpired clock locks) := by
  intro e' he'
  obtain ⟨e, he, rfl⟩ := Table.mem_update.1 he'
  refine ⟨e, he, ?_⟩
  split_ifs with hsome
  · rw [Bool.not_eq_true', List.isEmpty_eq_false_iff] at hsome
    obtain ⟨page, hpage⟩ := List.exists_mem_of_ne_nil _ hsome
    obtain ⟨hmem, hid, hstatus⟩ := mem_overdue hpage
    exact .single (.timedOut _ _ (h.isActive he hmem hid (.inl hstatus)) (Int.natCast_nonneg _))
  · exact .refl

/-- The deadline fails queued pages. -/
theorem Conserved.deadlinesExpired (h : Conserved s) (clock : ReclaimClock) (locks : ReclaimLocks) :
    Conserved (s.deadlinesExpired clock locks) := by
  refine ⟨h.counted.bulk (overduePage clock locks s) Page.timeOut (fun _ ↦ rfl) rfl ?_,
    wellFormed_update h.pages fun page hpage hsel ↦ (h.pages page hpage).timeOut ?_,
    (evolves_deadlinesExpired h clock locks).wellFormed h.executions⟩
  · intro e' he'
    obtain ⟨e, he, rfl⟩ := Table.mem_update.1 he'
    have hlost := countP_status_of_forall fun page
      (hpage : page ∈ pagesOf (s.pages.filter (overduePage clock locks s)) e) ↦
        (mem_overdue hpage).2.2
    refine ⟨e, he, by split_ifs <;> rfl, fun status ↦ ?_⟩
    rw [hlost]
    split_ifs with hsome
    · cases status <;> simp [Execution.count, Execution.timeOut, Page.timeOut, indicator]
    · rw [Bool.not_eq_true, Bool.not_eq_false', List.isEmpty_iff] at hsome
      simp [hsome]
  · simp only [overduePage, Bool.and_eq_true, decide_eq_true_eq] at hsel
    exact hsel.2

theorem evolves_finishedTerminalized (s : Store) (now : Instant) :
    Evolves s (s.finishedTerminalized now) := by
  intro e' he'
  obtain ⟨e, he, rfl⟩ := Table.mem_update.1 he'
  refine ⟨e, he, ?_⟩
  split_ifs with hstuck
  · exact .single (.terminalized now hstuck)
  · exact .refl

/-- Ending executions moves no page. -/
theorem Conserved.finishedTerminalized (h : Conserved s) (now : Instant) :
    Conserved (s.finishedTerminalized now) where
  counted e' he' status := by
    obtain ⟨e, he, rfl⟩ := Table.mem_update.1 he'
    have hcount := h.counted e he status
    split_ifs with hstuck
    · exact Eq.trans (by cases status <;> rfl) hcount
    · exact hcount
  pages := h.pages
  executions := (evolves_finishedTerminalized s now).wellFormed h.executions

/-- A new execution starts with its seed page in the queue. -/
theorem Conserved.started (h : Conserved s) (hkeyed : Keyed s) {now receivedAt : Instant}
    {envelope : ScanCommandEnvelope} (normalizedURL : Utf8.ByteString)
    (hvalid : envelope.validate env = []) :
    Conserved (s.started env now receivedAt envelope normalizedURL) where
  counted e he status := by
    have hcount : ∀ id, pageCount (s.started env now receivedAt envelope normalizedURL).pages id
        status = pageCount s.pages id status +
          if s.nextUuid = id ∧ PageStatus.queued = status then 1 else 0 := by
      intro id
      simp only [pageCount, Store.started, List.countP_append, List.countP_singleton, Page.isIn,
        seedPage, Bool.and_eq_true, decide_eq_true_eq]
    rw [hcount]
    rcases List.mem_append.1 he with he | he
    · have hne : s.nextUuid ≠ e.id := (hkeyed.executionFresh e he).ne'
      simp [hne, h.counted e he status]
    · rw [List.mem_singleton.1 he]
      have hnone : pageCount s.pages s.nextUuid status = 0 := by
        refine List.countP_eq_zero.2 fun page hpage hin ↦ ?_
        obtain ⟨e', he', hof⟩ := hkeyed.pageExecution page hpage
        simp only [Page.isOf, Bool.and_eq_true, decide_eq_true_eq] at hof
        simp only [Page.isIn, Bool.and_eq_true, decide_eq_true_eq] at hin
        exact (hkeyed.executionFresh e' he').ne (hof.1.1.symm.trans hin.1)
      cases status <;> simp [newExecution, Execution.count, hnone]
  pages page hpage := by
    rcases List.mem_append.1 hpage with hpage | hpage
    · exact h.pages page hpage
    · rw [List.mem_singleton.1 hpage]
      exact seedPage_wellFormed now envelope normalizedURL _ _
  executions e he := by
    rcases List.mem_append.1 he with he | he
    · exact h.executions e he
    · rw [List.mem_singleton.1 he]
      exact newExecution_wellFormed hvalid normalizedURL _

/-- Conservation looks at executions and pages only. -/
theorem Conserved.congr (h : Conserved s) (hexecutions : s'.executions = s.executions)
    (hpages : s'.pages = s.pages) : Conserved s' where
  counted := by
    rw [Counted, hexecutions, hpages]
    exact h.counted
  pages := hpages ▸ h.pages
  executions := hexecutions ▸ h.executions

/-! ### Outstanding pages -/

/-- The counters of outstanding pages add up to something as soon as one of them is positive. -/
theorem Conserved.outstanding_pos (h : Conserved s) {e : Execution} (he : e ∈ s.executions)
    (hpos : 0 < e.queuedCount ∨ 0 < e.leasedCount ∨ 0 < e.persistingCount) : 0 < e.outstanding := by
  have hqueued : 0 ≤ e.queuedCount := h.counted.nonneg he .queued
  have hleased : 0 ≤ e.leasedCount := h.counted.nonneg he .leased
  have hpersisting : 0 ≤ e.persistingCount := h.counted.nonneg he .persisting
  simp only [Execution.outstanding]
  omega

/-- An execution that is not finished has outstanding pages. -/
theorem Conserved.outstanding_of_not_finished (h : Conserved s) {e : Execution}
    (he : e ∈ s.executions) (hfinished : e.isFinished = false) : 0 < e.outstanding := by
  have hqueued : 0 ≤ e.queuedCount := h.counted.nonneg he .queued
  have hleased : 0 ≤ e.leasedCount := h.counted.nonneg he .leased
  have hpersisting : 0 ≤ e.persistingCount := h.counted.nonneg he .persisting
  have hexpected := (h.executions e he).expected
  refine h.outstanding_pos he ?_
  by_contra hzero
  refine Bool.false_ne_true (hfinished.symm.trans ?_)
  simp only [Execution.isFinished, Bool.and_eq_true, decide_eq_true_eq]
  omega

/-- A finished execution has no outstanding pages. -/
theorem Execution.outstanding_of_finished {e : Execution} (h : e.isFinished = true) :
    e.outstanding = 0 := by
  simp only [Execution.isFinished, Bool.and_eq_true, decide_eq_true_eq] at h
  simp only [Execution.outstanding]
  omega

/-- Live executions of an update of one of them. -/
theorem live_update {id : Uuid} {set : Execution → Execution} (hlive : Live s)
    (hexecutions : s'.executions = Table.update (fun e ↦ decide (e.id = id)) set s.executions)
    (hset : ∀ e ∈ s.executions, e.id = id → (set e).status.isTerminal = false →
      0 < (set e).outstanding) : Live s' := by
  intro e' he' hactive
  rw [hexecutions, mem_updateExecution] at he'
  obtain ⟨e, he, ⟨hid, rfl⟩ | ⟨-, rfl⟩⟩ := he'
  · exact hset e he hid hactive
  · exact hlive e' he hactive

theorem Live.claimed (hlive : Live s) {now leaseUntil nextAllowedAt : Instant} {lease : PageLease}
    {targetHostname : Utf8.ByteString}
    (h : Conserved s) (h' : Conserved (s.claimed now leaseUntil nextAllowedAt lease targetHostname)) :
    Live (s.claimed now leaseUntil nextAllowedAt lease targetHostname) := by
  refine live_update hlive rfl fun e he hid _ ↦ ?_
  have hleased : 0 ≤ e.leasedCount := h.counted.nonneg he .leased
  refine h'.outstanding_pos (mem_updateExecution.2 ⟨e, he, .inl ⟨hid, rfl⟩⟩) (.inr (.inl ?_))
  exact Int.lt_add_one_of_le hleased

theorem Live.requeued (hlive : Live s) {now : Instant} {lease : PageLease} {attemptCount : ℕ}
    (h : Conserved s) (h' : Conserved (s.requeued now lease attemptCount)) :
    Live (s.requeued now lease attemptCount) := by
  refine live_update hlive rfl fun e he hid _ ↦ ?_
  have hqueued : 0 ≤ e.queuedCount := h.counted.nonneg he .queued
  refine h'.outstanding_pos (mem_updateExecution.2 ⟨e, he, .inl ⟨hid, rfl⟩⟩) (.inl ?_)
  exact Int.lt_add_one_of_le hqueued

theorem Live.staged (hlive : Live s) {now : Instant} {lease : PageLease} {result : PageResult}
    {resultVersion : ℕ} {payload : Utf8.ByteString} {added : List Page} {outboxId : Uuid}
    (h : Conserved s)
    (h' : Conserved (s.staged env now lease result resultVersion payload added outboxId)) :
    Live (s.staged env now lease result resultVersion payload added outboxId) := by
  refine live_update hlive rfl fun e he hid _ ↦ ?_
  have hpersisting : 0 ≤ e.persistingCount := h.counted.nonneg he .persisting
  refine h'.outstanding_pos (mem_updateExecution.2 ⟨e, he, .inl ⟨hid, rfl⟩⟩) (.inr (.inr ?_))
  exact Int.lt_add_one_of_le hpersisting

/-- A delivery ends its execution when it was the last. -/
theorem Live.published (hlive : Live s) {now : Instant} {batch : AnalyticsBatch}
    {terminalStatus : TerminalStatus} (h' : Conserved (s.published now batch terminalStatus)) :
    Live (s.published now batch terminalStatus) := by
  refine live_update hlive (published_executions now batch terminalStatus s) fun e he hid hactive ↦ ?_
  have hmem : (e.publish terminalStatus now).finish now ∈
      (s.published now batch terminalStatus).executions := by
    rw [published_executions]
    exact mem_updateExecution.2 ⟨e, he, .inl ⟨hid, rfl⟩⟩
  by_cases hfinished : (e.publish terminalStatus now).isFinished = true
  · rw [Execution.finish, if_pos hfinished] at hactive
    exact absurd (Execution.outcome_isTerminal _) (by rw [hactive]; exact Bool.false_ne_true)
  · refine h'.outstanding_of_not_finished hmem ?_
    rw [Execution.finish, if_neg hfinished]
    exact Bool.not_eq_true _ ▸ hfinished

/-- A cancellation ends its execution unless analytics are still to be delivered. -/
theorem Live.cancelled (hlive : Live s) {version : ℤ} {now : Instant} {e : Execution}
    (h : Conserved s) (h' : Conserved (s.cancelled version now e)) :
    Live (s.cancelled version now e) := by
  refine live_update hlive rfl fun e' he' hid hactive ↦ ?_
  refine h'.outstanding_pos (mem_updateExecution.2 ⟨e', he', .inl ⟨hid, rfl⟩⟩) (.inr (.inr ?_))
  have hpersisting : 0 ≤ e'.persistingCount := h.counted.nonneg he' .persisting
  have hexpected := (h.executions e' he').expected
  simp only [Execution.cancel] at hactive ⊢
  split_ifs at hactive with hlast
  · cases hactive
  · omega

/-- Reclaiming ends every execution that it leaves without outstanding pages. -/
theorem live_finishedTerminalized (h : Conserved s) (now : Instant) :
    Live (s.finishedTerminalized now) := by
  intro e' he' hactive
  obtain ⟨e, he, rfl⟩ := Table.mem_update.1 he'
  split_ifs at hactive ⊢ with hstuck
  · exact absurd e.outcome_isTerminal (by rw [show e.outcome.isTerminal = false from hactive]; simp)
  · refine h.outstanding_of_not_finished he ?_
    rw [← Bool.not_eq_true]
    intro hfinished
    refine hstuck ?_
    simp only [Execution.isStuck, hfinished, Bool.and_true, Bool.or_eq_true, decide_eq_true_eq]
    cases hstatus : e.status <;> simp_all [ExecutionStatus.isTerminal]

/-! ### Every run -/

/-- Keys, conservation, and no execution left stuck. -/
structure System.Conserved (sys : System) : Prop where
  keyed : sys.Keyed
  conserved : Crawler.Conserved sys.store
  live : Live sys.store

/-- Progress events leave the other tables alone. -/
theorem progressEvents_tables {now : Instant} {ids : List Uuid} (h : ProgressEvents now ids s s') :
    s'.executions = s.executions ∧ s'.pages = s.pages ∧ s'.hostLeases = s.hostLeases ∧
      s'.analyticsOutbox = s.analyticsOutbox ∧ s'.inboxMessages = s.inboxMessages := by
  induction h with
  | nil s => exact ⟨rfl, rfl, rfl, rfl, rfl⟩
  | cons _ _ _ _ _ ih => exact ih

/-- The statements of a reclaim, in order. -/
theorem Conserved.reclaimed (h : Conserved s) (clock : ReclaimClock) (locks : ReclaimLocks) :
    Conserved (s.reclaimed clock locks) ∧ Live (s.reclaimed clock locks) ∧
      Evolves s (s.reclaimed clock locks) := by
  have h₁ : Conserved (s.deliveriesReclaimed clock) := h.congr rfl rfl
  have h₂ := h₁.leasesReclaimed clock locks
  have hevolves₂ := evolves_leasesReclaimed h₁ clock locks
  have hevolves₃ := evolves_deadlinesExpired h₂ clock locks
  have h₃ : Conserved ((((s.deliveriesReclaimed clock).leasesReclaimed clock locks).deadlinesExpired
    clock locks).hostsReleased clock) := (h₂.deadlinesExpired clock locks).congr rfl rfl
  exact ⟨h₃.finishedTerminalized _, live_finishedTerminalized h₃ _,
    (hevolves₂.trans hevolves₃).trans (evolves_finishedTerminalized _ _)⟩

/-- The limit that a result checks is the limit of its execution. -/
theorem stage_limit (hkeyed : Keyed s) {lease : PageLease} (hlease : Leased s lease)
    {added : List Page} (hexecutions : ∀ e ∈ s.executions, e.WellFormed)
    (hlimit : added ≠ [] → ∃ e, s.executions.find? (fun e ↦ decide (e.id = lease.executionId)) =
      some e ∧ e.discoveredCount + added.length ≤ lease.maxPages) :
    ∀ e ∈ s.executions, e.id = lease.executionId →
      e.discoveredCount + added.length ≤ e.maxPages := by
  intro e he hid
  by_cases hnil : added = []
  · rw [hnil, List.length_nil, Nat.cast_zero, add_zero]
    exact (hexecutions e he).limit
  · obtain ⟨e', he', hbound⟩ := hlimit hnil
    have hid' : e'.id = lease.executionId := by simpa using List.find?_some he'
    obtain rfl := hkeyed.execution_eq he (List.mem_of_find?_eq_some he') (hid.trans hid'.symm)
    obtain ⟨e'', he'', -, -, -, hexecution, -, -, hmax, -⟩ := hlease
    obtain rfl := hkeyed.execution_eq he he'' (hid.trans hexecution)
    rwa [← hmax]

/-- Stale messages were added to the inbox. -/
def OnlyStale (s s' : Store) : Prop :=
  ∃ stale, s'.inboxMessages = s.inboxMessages ++ stale ∧ ∀ message ∈ stale,
    message.outcome = .ignoredStale ∧ ∃ e ∈ s.executions, e.scanId = message.aggregateId

theorem onlyStale_of_eq (h : s'.inboxMessages = s.inboxMessages) : OnlyStale s s' :=
  ⟨[], by rw [h, List.append_nil], by simp⟩

/-- What a transition does to the executions: they are worked on, or one is started, or one is
cancelled. -/
inductive Change (env : Env) (s s' : Store) : Prop
  | worked (hevolves : Evolves s s') (hinbox : OnlyStale s s')
  | started (now receivedAt : Instant) (envelope : ScanCommandEnvelope)
      (normalizedURL : Utf8.ByteString) (hvalid : envelope.validate env = [])
      (hnew : ∀ e ∈ s.executions, e.scanId ≠ envelope.payload.scanId)
      (hs' : s' = s.started env now receivedAt envelope normalizedURL)
  | cancelled (now receivedAt : Instant) (envelope : ScanCancelCommandEnvelope) (e : Execution)
      (hvalid : envelope.validate = []) (he : e ∈ s.executions)
      (hscan : e.scanId = envelope.payload.scanId) (hactive : e.status.isTerminal = false)
      (hexecutions : ∀ e' ∈ s'.executions,
        e' = e.cancel envelope.aggregateVersion e.queuedCount e.leasedCount now ∨
          e' ∈ s.executions ∧ e'.id ≠ e.id)
      (hinbox : s'.inboxMessages = s.inboxMessages ++ [envelope.inboxRow env .applied receivedAt])

/-- Every transition conserves the counters, leaves no execution stuck, and is a change of one of
the three kinds. -/
theorem Transition.conserved {sys sys' : System} (h : Transition env sys sys')
    (hsys : sys.Conserved) : Crawler.Conserved sys'.store ∧ Live sys'.store ∧
      Change env sys.store sys'.store := by
  obtain ⟨hkeyed, hconserved, hlive⟩ := hsys
  have hsame : ∀ {s' : Store}, s'.executions = sys.store.executions →
      s'.inboxMessages = sys.store.inboxMessages → Change env sys.store s' :=
    fun hexecutions hinbox ↦
      .worked (fun e he ↦ ⟨e, hexecutions ▸ he, .refl⟩) (onlyStale_of_eq hinbox)
  obtain ⟨_, h⟩ := h
  cases h with
  | unchanged => exact ⟨hconserved, hlive, hsame rfl rfl⟩
  | idle => exact ⟨hconserved.congr rfl rfl, hlive, hsame rfl rfl⟩
  | stale message houtcome hscan =>
    exact ⟨hconserved.congr rfl rfl, hlive, .worked (.refl _) ⟨[message], rfl, fun m hm ↦ by
      rw [List.mem_singleton.1 hm]
      exact ⟨houtcome, hscan⟩⟩⟩
  | started now receivedAt envelope url hvalid hnew =>
    refine ⟨hconserved.started hkeyed.store url hvalid, fun e he hactive ↦ ?_,
      .started now receivedAt envelope url hvalid hnew rfl⟩
    rcases List.mem_append.1 he with he | he
    · exact hlive e he hactive
    · rw [List.mem_singleton.1 he]
      exact Int.zero_lt_one
  | cancelled now receivedAt envelope e e' hvalid he hscan _ _ hactive =>
    have h := hconserved.cancelled hkeyed.store he envelope.aggregateVersion now
    exact ⟨h.congr rfl rfl, hlive.cancelled hconserved h,
      .cancelled now receivedAt envelope e hvalid he hscan hactive
        (fun e' he' ↦ mem_cancelled hconserved.counted hkeyed.store he he') rfl⟩
  | claimed now leaseUntil hostDelay locks e host page correlationId e' _ hrows =>
    obtain ⟨he, -, hpage, -, hleases, -, -, -, hof, havailable, -⟩ := claimRows_spec hrows
    simp only [Page.isAvailable, Bool.and_eq_true, decide_eq_true_eq] at havailable
    simp only [Page.isOf, Bool.and_eq_true, decide_eq_true_eq] at hof
    have hroom : ∀ other ∈ sys.store.executions, other.id = page.executionId →
        other.leasedCount < other.maxConcurrency := fun other hother hid ↦
      hkeyed.store.execution_eq he hother (hof.1.1.symm.trans hid.symm) ▸ hleases
    have h : Crawler.Conserved (sys.store.claimed now leaseUntil (now + hostDelay)
        (newLease sys.store.nextUuid e host page correlationId) e.targetHostname) :=
      hconserved.claimed hkeyed.store hpage (by simp [Page.hasKey, newLease]) rfl havailable.1 hroom
    have hevolves : Evolves sys.store (sys.store.claimed now leaseUntil (now + hostDelay)
        (newLease sys.store.nextUuid e host page correlationId) e.targetHostname) :=
      evolves_claimed hconserved hpage rfl havailable.1 hroom
    exact ⟨h.congr rfl rfl, hlive.claimed hconserved h, .worked hevolves (onlyStale_of_eq rfl)⟩
  | extended leaseUntil lease => exact ⟨hconserved.extended leaseUntil lease, hlive, hsame rfl rfl⟩
  | requeued now lease result page e hlease hpage hleased _ hretry =>
    obtain ⟨hmonth, hid, hstatus, -, -⟩ := isLeasedUnder_iff.1 hleased
    have hkey : page.hasKey lease.retentionMonth lease.pageId = true := by
      simp [Page.hasKey, hmonth, hid]
    have hexecution := (hkeyed.leases lease hlease).executionId hkeyed.store hpage hkey
    have hattempts : page.attemptCount < 3 := by
      by_contra hlast
      simp [shouldRetryPage, not_lt.1 hlast] at hretry
    have h : Crawler.Conserved (sys.store.requeued now lease page.attemptCount) :=
      hconserved.requeued hkeyed.store hpage hkey hexecution hstatus hattempts
    have hevolves : Evolves sys.store (sys.store.requeued now lease page.attemptCount) :=
      evolves_requeued hconserved hpage hexecution hstatus
    exact ⟨h.congr rfl rfl, hlive.requeued hconserved h, .worked hevolves (onlyStale_of_eq rfl)⟩
  | staged now lease result page added payload outboxId e hlease hpage hleased _ _ _ hadded hlimit =>
    obtain ⟨hmonth, hid, hstatus, -, -⟩ := isLeasedUnder_iff.1 hleased
    have hkey : page.hasKey lease.retentionMonth lease.pageId = true := by
      simp [Page.hasKey, hmonth, hid]
    have hexecution := (hkeyed.leases lease hlease).executionId hkeyed.store hpage hkey
    have hlimit := stage_limit hkeyed.store (hkeyed.leases lease hlease) hconserved.executions hlimit
    have h : Crawler.Conserved (sys.store.staged env now lease result (page.resultVersion + 1)
        payload added outboxId) :=
      hconserved.staged hkeyed.store hpage hkey hexecution hstatus hadded hlimit
    have hevolves : Evolves sys.store (sys.store.staged env now lease result
        (page.resultVersion + 1) payload added outboxId) :=
      evolves_staged hconserved hpage hexecution hstatus hlimit
    exact ⟨h.congr rfl rfl, hlive.staged hconserved h, .worked hevolves (onlyStale_of_eq rfl)⟩
  | analyticsClaimed => exact ⟨hconserved.congr rfl rfl, hlive, hsame rfl rfl⟩
  | published now batch page terminalStatus e correlationId hbatch _ hpage hkey hstatus =>
    have hbatch := hkeyed.batches batch hbatch
    have h : Crawler.Conserved (sys.store.published now batch terminalStatus) :=
      hconserved.published hkeyed.store hbatch hpage hkey hstatus
    have hevolves : Evolves sys.store (sys.store.published now batch terminalStatus) :=
      evolves_published hconserved hpage (hbatch.executionId hkeyed.store hpage hkey) hstatus
    exact ⟨h.congr rfl rfl, hlive.published h, .worked hevolves (onlyStale_of_eq rfl)⟩
  | analyticsRetried => exact ⟨hconserved.congr rfl rfl, hlive, hsame rfl rfl⟩
  | eventsMoved => exact ⟨hconserved.congr rfl rfl, hlive, hsame rfl rfl⟩
  | reclaimed clock locks s' _ _ hevents =>
    obtain ⟨hexecutions, hpages, -, -, hinbox⟩ := progressEvents_tables hevents
    obtain ⟨h, hlive, hevolves⟩ := hconserved.reclaimed clock locks
    refine ⟨h.congr hexecutions hpages, ?_, .worked ?_ (onlyStale_of_eq hinbox)⟩
    · rw [Live, hexecutions]
      exact hlive
    · rw [Evolves, hexecutions]
      exact hevolves

/-- The counters are conserved in every run. -/
theorem conserved_after (env : Env) (actions : List Action) :
    (System.after env actions).Conserved := by
  have hinit : System.Conserved {} :=
    ⟨System.keyed_init, ⟨by simp [Counted], by simp, by simp⟩, by simp [Live]⟩
  refine after_invariant hinit (fun h hsys ↦ ?_) actions
  obtain ⟨hconserved, hlive, -⟩ := h.conserved hsys
  exact ⟨h.system_keyed hsys.keyed, hconserved, hlive⟩

/-- Counter conservation: after every run of the transactions by any number of workers, every
counter is the number of the execution's pages in its status, the counters add up to the discovered
pages, the analytics still expected are those of the persisting pages, pages are attempted at most
three times, and cancelled or terminal executions have no pages left to work on. -/
theorem counters_conserved (env : Env) (actions : List Action) :
    (∀ page ∈ (System.after env actions).store.pages,
      page.attemptCount ≤ 3 ∧ (page.status = .queued → page.attemptCount < 3)) ∧
    ∀ e ∈ (System.after env actions).store.executions,
      (∀ status, e.count status =
        pageCount (System.after env actions).store.pages e.id status) ∧
      e.queuedCount + e.leasedCount + e.persistingCount + e.succeededCount + e.failedCount +
        e.skippedCount + e.cancelledCount = e.discoveredCount ∧
      e.analyticsExpectedCount - e.analyticsPublishedCount =
        pageCount (System.after env actions).store.pages e.id .persisting ∧
      (e.status = .cancelRequested →
        ∀ page ∈ (System.after env actions).store.pages, page.executionId = e.id →
          page.status ≠ .queued ∧ page.status ≠ .leased) ∧
      (e.status.isTerminal = true →
        ∀ page ∈ (System.after env actions).store.pages, page.executionId = e.id →
          page.status ≠ .queued ∧ page.status ≠ .leased ∧ page.status ≠ .persisting) := by
  obtain ⟨-, hconserved, -⟩ := conserved_after env actions
  refine ⟨fun page hpage ↦ ⟨(hconserved.pages page hpage).attempts,
    (hconserved.pages page hpage).queued⟩, fun e he ↦ ?_⟩
  have hcounted := hconserved.counted e he
  obtain ⟨htotal, hexpected, -, -, -, hcancel, hterminal, -, -⟩ := hconserved.executions e he
  have hpos : ∀ page ∈ (System.after env actions).store.pages, page.executionId = e.id →
      0 < e.count page.status :=
    fun page hpage hid ↦ hconserved.counted.pos he hpage hid
  refine ⟨hcounted, ?_, hexpected.trans (hcounted .persisting), ?_, ?_⟩
  · rw [htotal, Execution.outstanding]
  · intro hstatus page hpage hid
    obtain ⟨hqueued, hleased⟩ := hcancel hstatus
    have := hpos page hpage hid
    constructor <;> intro heq <;> rw [heq, Execution.count] at this <;> omega
  · intro hstatus page hpage hid
    obtain ⟨hqueued, hleased, hpersisting⟩ := hterminal hstatus
    have := hpos page hpage hid
    refine ⟨?_, ?_, ?_⟩ <;> intro heq <;> rw [heq, Execution.count] at this <;> omega

/-- The counters of the sample scan after its command. -/
theorem counters_conserved_sample :
    (newExecution Env.sample 1 (.sample 5) (Utf8.ofText "https://example.com/") 1).count .queued =
      pageCount (System.after Env.sample [.acceptCommand 1 1 (.sample 5)]).store.pages 1 .queued :=
  ((counters_conserved Env.sample [.acceptCommand 1 1 (.sample 5)]).2 _
    (List.mem_singleton.2 rfl)).1 .queued

end WebLens.Crawler
