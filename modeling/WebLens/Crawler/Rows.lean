import Mathlib.Logic.Relation
import WebLens.Crawler.Keys

/-!
# Well-formed rows

What the columns of one page, and of one execution, say about each other in every reachable store,
with the change of each transaction that keeps it. Whether a change meets its condition is left to
the transactions.
-/

set_option autoImplicit false
set_option relaxedAutoImplicit false

namespace WebLens.Crawler

open Lib

variable {env : Env}

/-! ### Well-formed pages -/

/-- What the status of a page says about its other columns. -/
structure Page.WellFormed (page : Page) : Prop where
  attempts : page.attemptCount ≤ 3
  queued : page.status = .queued → page.attemptCount < 3
  pending : page.pendingTerminalStatus.isSome = decide (page.status = .persisting)
  owner : page.leaseOwner.isSome = decide (page.status = .leased)
  unstaged : page.status = .queued ∨ page.status = .leased → page.resultVersion = 0
  version : page.resultVersion ≤ 1

theorem Page.WellFormed.cancel {page : Page} (h : page.WellFormed) : page.cancel.WellFormed :=
  ⟨h.attempts, by simp [Page.cancel], by simp [Page.cancel, Page.release],
    by simp [Page.cancel, Page.release], by simp [Page.cancel], h.version⟩

theorem Page.WellFormed.claim {page : Page} (h : page.WellFormed) (hstatus : page.status = .queued)
    (lease : PageLease) (leaseUntil : Instant) : (page.claim lease leaseUntil).WellFormed where
  attempts := h.queued hstatus
  queued := by simp [Page.claim]
  pending := by
    have := h.pending
    simpa [Page.claim, hstatus] using this
  owner := by simp [Page.claim]
  unstaged := fun _ ↦ h.unstaged (.inl hstatus)
  version := h.version

theorem Page.WellFormed.requeue {page : Page} (h : page.WellFormed)
    (hstatus : page.status = .leased) (hattempts : page.attemptCount < 3) (availableAt : Instant) :
    (page.requeue availableAt).WellFormed where
  attempts := h.attempts
  queued := fun _ ↦ hattempts
  pending := by
    have := h.pending
    simpa [Page.requeue, Page.release, hstatus] using this
  owner := by simp [Page.requeue, Page.release]
  unstaged := fun _ ↦ h.unstaged (.inr hstatus)
  version := h.version

theorem Page.WellFormed.stage {page : Page} (h : page.WellFormed) (hstatus : page.status = .leased)
    (terminalStatus : TerminalStatus) : (page.stage terminalStatus).WellFormed where
  attempts := h.attempts
  queued := by simp [Page.stage]
  pending := by simp [Page.stage]
  owner := by simp [Page.stage, Page.release]
  unstaged := by simp [Page.stage]
  version := by
    have := h.unstaged (.inr hstatus)
    simp [Page.stage, Page.release, this]

theorem Page.WellFormed.complete {page : Page} (h : page.WellFormed)
    (hstatus : page.status = .persisting) (terminalStatus : TerminalStatus) :
    (page.complete terminalStatus).WellFormed where
  attempts := h.attempts
  queued := by cases terminalStatus <;> simp [Page.complete, TerminalStatus.toPageStatus]
  pending := by cases terminalStatus <;> simp [Page.complete, TerminalStatus.toPageStatus]
  owner := by
    have := h.owner
    cases terminalStatus <;> simpa [Page.complete, TerminalStatus.toPageStatus, hstatus] using this
  unstaged := by cases terminalStatus <;> simp [Page.complete, TerminalStatus.toPageStatus]
  version := h.version

theorem Page.WellFormed.expire {page : Page} (h : page.WellFormed)
    (hstatus : page.status = .leased) (now : Instant) : (page.expire now).WellFormed where
  attempts := h.attempts
  queued := by
    simp only [Page.expire, Page.release]
    split_ifs with hlast
    · simp
    · exact fun _ ↦ not_le.1 hlast
  pending := by
    have := h.pending
    simp only [hstatus] at this
    simp only [Page.expire, Page.release, this]
    split_ifs <;> rfl
  owner := by
    simp only [Page.expire, Page.release]
    split_ifs <;> rfl
  unstaged := fun _ ↦ h.unstaged (.inr hstatus)
  version := h.version

theorem Page.WellFormed.timeOut {page : Page} (h : page.WellFormed)
    (hstatus : page.status = .queued) : page.timeOut.WellFormed where
  attempts := h.attempts
  queued := by simp [Page.timeOut]
  pending := by
    have := h.pending
    simpa [Page.timeOut, hstatus] using this
  owner := by
    have := h.owner
    simpa [Page.timeOut, hstatus] using this
  unstaged := by simp [Page.timeOut]
  version := h.version

/-- An update that keeps the pages well formed. -/
theorem wellFormed_update {sel : Page → Bool} {set : Page → Page} {pages : List Page}
    (hpages : ∀ page ∈ pages, page.WellFormed)
    (hset : ∀ page ∈ pages, sel page = true → (set page).WellFormed) :
    ∀ page ∈ Table.update sel set pages, page.WellFormed := by
  intro page' hmem
  obtain ⟨page, hpage, rfl⟩ := Table.mem_update.1 hmem
  split_ifs with hsel
  · exact hset page hpage hsel
  · exact hpages page hpage

/-! ### Well-formed executions -/

/-- The counter of an execution for a page status. -/
def Execution.count (e : Execution) : PageStatus → ℤ
  | .queued => e.queuedCount
  | .leased => e.leasedCount
  | .persisting => e.persistingCount
  | .succeeded => e.succeededCount
  | .failed => e.failedCount
  | .skipped => e.skippedCount
  | .cancelled => e.cancelledCount

/-- The pages of an execution that are still worked on. -/
def Execution.outstanding (e : Execution) : ℤ :=
  e.queuedCount + e.leasedCount + e.persistingCount

/-- What the columns of an execution say about each other. -/
structure Execution.WellFormed (e : Execution) : Prop where
  total : e.discoveredCount = e.outstanding + e.succeededCount + e.failedCount + e.skippedCount +
    e.cancelledCount
  expected : e.analyticsExpectedCount - e.analyticsPublishedCount = e.persistingCount
  published : 0 ≤ e.analyticsPublishedCount
  settled : e.analyticsPublishedCount ≤ e.succeededCount + e.failedCount + e.skippedCount
  limit : e.discoveredCount ≤ e.maxPages
  cancelRequested : e.status = .cancelRequested → e.queuedCount = 0 ∧ e.leasedCount = 0
  terminal : e.status.isTerminal = true →
    e.queuedCount = 0 ∧ e.leasedCount = 0 ∧ e.persistingCount = 0
  notIndexing : e.status ≠ .indexing
  outcome : e.status.isTerminal = true → e.status ≠ .cancelled → e.status = e.outcome

/-- The execution may still start pages. -/
def Execution.IsActive (e : Execution) : Prop :=
  e.status = .queued ∨ e.status = .running

theorem Execution.IsActive.not_terminal {e : Execution} (h : e.IsActive) :
    e.status.isTerminal = false := by
  rcases h with h | h <;> rw [h] <;> rfl

theorem Execution.IsActive.not_cancelRequested {e : Execution} (h : e.IsActive) :
    e.status ≠ .cancelRequested := by
  rcases h with h | h <;> rw [h] <;> decide

/-- An execution with a queued or leased page is active. -/
theorem Execution.WellFormed.isActive {e : Execution} (h : e.WellFormed)
    (hcount : 0 < e.queuedCount ∨ 0 < e.leasedCount) : e.IsActive := by
  have hcancel := h.cancelRequested
  have hterminal := h.terminal
  have hindexing := h.notIndexing
  unfold Execution.IsActive
  cases hstatus : e.status with
  | queued => exact .inl rfl
  | running => exact .inr rfl
  | indexing => exact absurd hstatus hindexing
  | cancelRequested =>
    have := hcancel hstatus
    omega
  | completed | partialSuccess | failed | cancelled =>
    have := hterminal (by rw [hstatus]; rfl)
    omega

/-- An execution with a page in persistence is not terminal. -/
theorem Execution.WellFormed.not_terminal {e : Execution} (h : e.WellFormed)
    (hcount : 0 < e.persistingCount) : e.status.isTerminal = false := by
  rw [← Bool.not_eq_true]
  intro hterminal
  have := h.terminal hterminal
  omega

theorem Execution.WellFormed.claim {e : Execution} (h : e.WellFormed) (now : Instant) :
    (e.claim now).WellFormed where
  total := by
    have := h.total
    simp only [Execution.outstanding, Execution.claim] at this ⊢
    omega
  expected := h.expected
  published := h.published
  settled := h.settled
  limit := h.limit
  cancelRequested := by simp [Execution.claim]
  terminal := by simp [Execution.claim, ExecutionStatus.isTerminal]
  notIndexing := by simp [Execution.claim]
  outcome := by simp [Execution.claim, ExecutionStatus.isTerminal]

theorem Execution.WellFormed.requeue {e : Execution} (h : e.WellFormed) (hactive : e.IsActive)
    (now : Instant) : (e.requeue now).WellFormed where
  total := by
    have := h.total
    simp only [Execution.outstanding, Execution.requeue] at this ⊢
    omega
  expected := h.expected
  published := h.published
  settled := h.settled
  limit := h.limit
  cancelRequested := fun hstatus ↦ absurd hstatus hactive.not_cancelRequested
  terminal := fun hstatus ↦ by simp [Execution.requeue, hactive.not_terminal] at hstatus
  notIndexing := h.notIndexing
  outcome := h.outcome

theorem Execution.WellFormed.stage {e : Execution} (h : e.WellFormed) (hactive : e.IsActive)
    {discovered : ℤ} (hlimit : e.discoveredCount + discovered ≤ e.maxPages) (now : Instant) :
    (e.stage discovered now).WellFormed where
  total := by
    have := h.total
    simp only [Execution.outstanding, Execution.stage] at this ⊢
    omega
  expected := by
    have := h.expected
    simp only [Execution.stage]
    omega
  published := h.published
  settled := h.settled
  limit := hlimit
  cancelRequested := fun hstatus ↦ absurd hstatus hactive.not_cancelRequested
  terminal := fun hstatus ↦ by simp [Execution.stage, hactive.not_terminal] at hstatus
  notIndexing := h.notIndexing
  outcome := h.outcome

theorem Execution.WellFormed.publish {e : Execution} (h : e.WellFormed)
    (hactive : e.status.isTerminal = false) (terminalStatus : TerminalStatus) (now : Instant) :
    (e.publish terminalStatus now).WellFormed where
  total := by
    have := h.total
    cases terminalStatus <;> simp [Execution.outstanding, Execution.publish] at this ⊢ <;> omega
  expected := by
    have := h.expected
    simp only [Execution.publish]
    omega
  published := by
    have := h.published
    simp only [Execution.publish]
    omega
  settled := by
    have := h.settled
    cases terminalStatus <;> simp [Execution.publish] <;> omega
  limit := h.limit
  cancelRequested := h.cancelRequested
  terminal := fun hstatus ↦ by simp [Execution.publish, hactive] at hstatus
  notIndexing := h.notIndexing
  outcome := fun hstatus ↦ by simp [Execution.publish, hactive] at hstatus

/-- The terminal statuses that the outcome can be. -/
theorem Execution.outcome_isTerminal (e : Execution) : e.outcome.isTerminal = true := by
  unfold Execution.outcome
  split_ifs <;> rfl

/-- The outcome of an execution that is not being cancelled depends on its counters only. -/
theorem Execution.outcome_congr {e e' : Execution} (hcancel : e.status ≠ .cancelRequested)
    (hcancel' : e'.status ≠ .cancelRequested) (hsucceeded : e'.succeededCount = e.succeededCount)
    (hrest : e'.unsuccessfulCount = e.unsuccessfulCount) : e'.outcome = e.outcome := by
  simp only [Execution.unsuccessfulCount] at hrest
  simp only [Execution.outcome, hcancel, hcancel', if_false, hsucceeded, hrest]

/-- The status that ends an execution, kept after it is set. -/
theorem Execution.outcome_settled {e e' : Execution} (hstatus : e'.status = e.outcome)
    (hsucceeded : e'.succeededCount = e.succeededCount)
    (hrest : e'.unsuccessfulCount = e.unsuccessfulCount) (hnot : e'.status ≠ .cancelled) :
    e'.status = e'.outcome := by
  have hcancel : e.status ≠ .cancelRequested := by
    intro h
    rw [hstatus, Execution.outcome, if_pos h] at hnot
    exact hnot rfl
  have hcancel' : e'.status ≠ .cancelRequested := by
    intro h
    have hterminal := e.outcome_isTerminal
    rw [← hstatus, h] at hterminal
    cases hterminal
  rw [hstatus]
  exact (Execution.outcome_congr hcancel hcancel' hsucceeded hrest).symm

/-- Ending an execution without outstanding pages. -/
theorem Execution.WellFormed.conclude {e e' : Execution} (h : e.WellFormed)
    (hfinished : e.isFinished = true) (hstatus : e'.status = e.outcome)
    (hcounts : ∀ status, e'.count status = e.count status)
    (hdiscovered : e'.discoveredCount = e.discoveredCount)
    (hexpected : e'.analyticsExpectedCount = e.analyticsExpectedCount)
    (hpublished : e'.analyticsPublishedCount = e.analyticsPublishedCount)
    (hmax : e'.maxPages = e.maxPages) : e'.WellFormed := by
  have hqueued : e'.queuedCount = e.queuedCount := hcounts .queued
  have hleased : e'.leasedCount = e.leasedCount := hcounts .leased
  have hpersisting : e'.persistingCount = e.persistingCount := hcounts .persisting
  have hsucceeded : e'.succeededCount = e.succeededCount := hcounts .succeeded
  have hfailed : e'.failedCount = e.failedCount := hcounts .failed
  have hskipped : e'.skippedCount = e.skippedCount := hcounts .skipped
  have hcancelled : e'.cancelledCount = e.cancelledCount := hcounts .cancelled
  have hterminal : e'.status.isTerminal = true := hstatus ▸ e.outcome_isTerminal
  simp only [Execution.isFinished, Bool.and_eq_true, decide_eq_true_eq] at hfinished
  have htotal := h.total
  have hexpected' := h.expected
  have hsettled := h.settled
  have hlimit := h.limit
  have hstarted := h.published
  simp only [Execution.outstanding] at htotal
  refine ⟨?_, ?_, ?_, ?_, ?_, ?_, ?_, ?_, ?_⟩
  · simp only [Execution.outstanding]
    omega
  · omega
  · omega
  · omega
  · omega
  · intro hcancel
    rw [hcancel] at hterminal
    cases hterminal
  · intro _
    omega
  · intro hindexing
    rw [hindexing] at hterminal
    cases hterminal
  · intro _ hnot
    refine Execution.outcome_settled hstatus hsucceeded ?_ hnot
    simp only [Execution.unsuccessfulCount, hfailed, hskipped, hcancelled]

theorem Execution.WellFormed.finish {e : Execution} (h : e.WellFormed) (now : Instant) :
    (e.finish now).WellFormed := by
  by_cases hfinished : e.isFinished = true
  · rw [Execution.finish, if_pos hfinished]
    exact h.conclude hfinished rfl (fun status ↦ by cases status <;> rfl) rfl rfl rfl rfl
  · rw [Execution.finish, if_neg hfinished]
    exact h

theorem Execution.WellFormed.terminalize {e : Execution} (h : e.WellFormed)
    (hstuck : e.isStuck = true) (now : Instant) : (e.terminalize now).WellFormed := by
  rw [Execution.isStuck, Bool.and_eq_true] at hstuck
  exact h.conclude hstuck.2 rfl (fun status ↦ by cases status <;> rfl) rfl rfl rfl rfl

theorem Execution.WellFormed.expire {e : Execution} (h : e.WellFormed) (hactive : e.IsActive)
    {total requeued failed : ℤ} (htotal : total = requeued + failed) (hfailed : 0 ≤ failed)
    (now : Instant) : (e.expire total requeued failed now).WellFormed where
  total := by
    have := h.total
    simp only [Execution.outstanding, Execution.expire] at this ⊢
    omega
  expected := h.expected
  published := h.published
  settled := by
    have := h.settled
    simp only [Execution.expire]
    omega
  limit := h.limit
  cancelRequested := fun hstatus ↦ absurd hstatus hactive.not_cancelRequested
  terminal := fun hstatus ↦ by simp [Execution.expire, hactive.not_terminal] at hstatus
  notIndexing := h.notIndexing
  outcome := fun hstatus ↦ by simp [Execution.expire, hactive.not_terminal] at hstatus

theorem Execution.WellFormed.timeOut {e : Execution} (h : e.WellFormed) (hactive : e.IsActive)
    {total : ℤ} (htotal : 0 ≤ total) (now : Instant) : (e.timeOut total now).WellFormed where
  total := by
    have := h.total
    simp only [Execution.outstanding, Execution.timeOut] at this ⊢
    omega
  expected := h.expected
  published := h.published
  settled := by
    have := h.settled
    simp only [Execution.timeOut]
    omega
  limit := h.limit
  cancelRequested := fun hstatus ↦ absurd hstatus hactive.not_cancelRequested
  terminal := fun hstatus ↦ by simp [Execution.timeOut, hactive.not_terminal] at hstatus
  notIndexing := h.notIndexing
  outcome := fun hstatus ↦ by simp [Execution.timeOut, hactive.not_terminal] at hstatus

/-- Cancelling every queued and leased page of an execution. -/
theorem Execution.WellFormed.cancel {e : Execution} (h : e.WellFormed) (version : ℤ)
    (now : Instant) : (e.cancel version e.queuedCount e.leasedCount now).WellFormed where
  total := by
    have := h.total
    simp only [Execution.outstanding, Execution.cancel] at this ⊢
    omega
  expected := h.expected
  published := h.published
  settled := h.settled
  limit := h.limit
  cancelRequested := fun _ ↦ ⟨sub_self _, sub_self _⟩
  terminal := by
    intro hterminal
    simp only [Execution.cancel] at hterminal
    split_ifs at hterminal with hlast
    · exact ⟨sub_self _, sub_self _, hlast.1⟩
    · cases hterminal
  notIndexing := by
    simp only [Execution.cancel]
    split_ifs <;> decide
  outcome := by
    intro hterminal hnot
    simp only [Execution.cancel] at hterminal hnot
    split_ifs at hterminal hnot with hlast
    · exact absurd rfl hnot
    · cases hterminal

/-! ### Steps of an execution -/

/-- One change of an execution by the work on it, with the guard that makes it well formed. -/
inductive ExecutionStep (e : Execution) : Execution → Prop
  | claimed (now : Instant) (hactive : e.IsActive) (hroom : e.leasedCount < e.maxConcurrency) :
      ExecutionStep e (e.claim now)
  | requeued (now : Instant) (hactive : e.IsActive) (hleased : 0 < e.leasedCount) :
      ExecutionStep e (e.requeue now)
  | staged (discovered : ℤ) (now : Instant) (hactive : e.IsActive) (hdiscovered : 0 ≤ discovered)
      (hlimit : e.discoveredCount + discovered ≤ e.maxPages) (hleased : 0 < e.leasedCount) :
      ExecutionStep e (e.stage discovered now)
  | published (terminalStatus : TerminalStatus) (now : Instant)
      (hactive : e.status.isTerminal = false) (hpersisting : 0 < e.persistingCount) :
      ExecutionStep e (e.publish terminalStatus now)
  | finished (now : Instant) (hactive : e.status.isTerminal = false)
      (hfinished : e.isFinished = true) : ExecutionStep e (e.finish now)
  | expired (total requeued failed : ℤ) (now : Instant) (hactive : e.IsActive)
      (htotal : total = requeued + failed) (hfailed : 0 ≤ failed) (hrequeued : 0 ≤ requeued)
      (hleased : 0 < e.leasedCount) : ExecutionStep e (e.expire total requeued failed now)
  | timedOut (total : ℤ) (now : Instant) (hactive : e.IsActive) (htotal : 0 ≤ total) :
      ExecutionStep e (e.timeOut total now)
  | terminalized (now : Instant) (hstuck : e.isStuck = true) : ExecutionStep e (e.terminalize now)

/-- A step keeps an execution well formed. -/
theorem ExecutionStep.wellFormed {e e' : Execution} (h : ExecutionStep e e') (he : e.WellFormed) :
    e'.WellFormed := by
  cases h with
  | claimed now => exact he.claim now
  | requeued now hactive => exact he.requeue hactive now
  | staged discovered now hactive _ hlimit _ => exact he.stage hactive hlimit now
  | published terminalStatus now hactive => exact he.publish hactive terminalStatus now
  | finished now => exact he.finish now
  | expired total requeued failed now hactive htotal hfailed =>
    exact he.expire hactive htotal hfailed now
  | timedOut total now hactive htotal => exact he.timeOut hactive htotal now
  | terminalized now hstuck => exact he.terminalize hstuck now

/-- The execution after the steps of one transaction. -/
abbrev ExecutionSteps : Execution → Execution → Prop :=
  Relation.ReflTransGen ExecutionStep

/-- Steps keep an execution well formed. -/
theorem ExecutionSteps.wellFormed {e e' : Execution} (h : ExecutionSteps e e')
    (he : e.WellFormed) : e'.WellFormed := by
  induction h with
  | refl => exact he
  | tail _ hstep ih => exact hstep.wellFormed ih

theorem newExecution_wellFormed {now : Instant} {envelope : ScanCommandEnvelope}
    (hvalid : envelope.validate env = []) (normalizedURL : Utf8.ByteString) (id : Uuid) :
    (newExecution env now envelope normalizedURL id).WellFormed where
  total := rfl
  expected := rfl
  published := le_refl 0
  settled := le_refl 0
  limit := (ScanCommandEnvelope.limits_of_validate hvalid).2.2.1
  cancelRequested := by simp [newExecution]
  terminal := by simp [newExecution, ExecutionStatus.isTerminal]
  notIndexing := by simp [newExecution]
  outcome := by simp [newExecution, ExecutionStatus.isTerminal]

theorem seedPage_wellFormed (now : Instant) (envelope : ScanCommandEnvelope)
    (normalizedURL : Utf8.ByteString) (executionId seedPageId : Uuid) :
    (seedPage env now envelope normalizedURL executionId seedPageId).WellFormed :=
  ⟨by simp [seedPage], by simp [seedPage], by simp [seedPage], by simp [seedPage],
    by simp [seedPage], by simp [seedPage]⟩

theorem discoveredPage_wellFormed (lease : PageLease) (normalizedURL : Utf8.ByteString)
    (now : Instant) (pageId : Uuid) : (discoveredPage lease normalizedURL now pageId).WellFormed :=
  ⟨by simp [discoveredPage], by simp [discoveredPage], by simp [discoveredPage],
    by simp [discoveredPage], by simp [discoveredPage], by simp [discoveredPage]⟩

end WebLens.Crawler
