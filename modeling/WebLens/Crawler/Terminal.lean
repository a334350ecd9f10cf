import WebLens.Crawler.Counters

/-!
# Terminal executions

A terminal execution and its pages never change again, and an execution that has run out of work is
terminal, with the status that its counters and its cancellation determine. `finalStatus` is that
status; the three transactions that end an execution and the public status all agree with it.
-/

set_option autoImplicit false
set_option relaxedAutoImplicit false

namespace WebLens.Crawler

open Lib

variable {env : Env} {s s' : Store}

/-! ### Steps of an execution -/

/-- Steps keep the columns that never change. -/
theorem ExecutionStep.fixed {e e' : Execution} (h : ExecutionStep e e') : e'.fixed = e.fixed := by
  cases h with
  | finished now => exact e.fixed_finish now
  | _ => rfl

theorem ExecutionSteps.fixed {e e' : Execution} (h : ExecutionSteps e e') :
    e'.fixed = e.fixed := by
  induction h with
  | refl => rfl
  | tail _ hstep ih => exact hstep.fixed.trans ih

/-- An execution that is stuck is not terminal. -/
theorem Execution.not_terminal_of_stuck {e : Execution} (h : e.isStuck = true) :
    e.status.isTerminal = false := by
  simp only [Execution.isStuck, Bool.and_eq_true, Bool.or_eq_true, decide_eq_true_eq] at h
  obtain ⟨((hstatus | hstatus) | hstatus) | hstatus, -⟩ := h <;> rw [hstatus] <;> rfl

/-- Only executions that are not terminal are worked on. -/
theorem ExecutionStep.not_terminal {e e' : Execution} (h : ExecutionStep e e') :
    e.status.isTerminal = false := by
  cases h with
  | claimed _ hactive | requeued _ hactive | staged _ _ hactive | expired _ _ _ _ hactive
  | timedOut _ _ hactive => exact hactive.not_terminal
  | published _ _ hactive | finished _ hactive => exact hactive
  | terminalized _ hstuck => exact Execution.not_terminal_of_stuck hstuck

/-- A terminal execution stays as it is. -/
theorem ExecutionSteps.eq_of_terminal {e e' : Execution} (h : ExecutionSteps e e')
    (hterminal : e.status.isTerminal = true) : e' = e := by
  rcases Relation.ReflTransGen.cases_head h with rfl | ⟨e₁, hstep, -⟩
  · rfl
  · rw [hstep.not_terminal] at hterminal
    cases hterminal

/-- The execution is being cancelled or is cancelled. -/
def Execution.IsCancelled (e : Execution) : Prop :=
  e.status = .cancelRequested ∨ e.status = .cancelled

theorem Execution.IsActive.not_isCancelled {e : Execution} (h : e.IsActive) : ¬ e.IsCancelled := by
  rintro (hstatus | hstatus) <;> rcases h with h | h <;> rw [h] at hstatus <;> cases hstatus

/-- The outcome is a cancellation when one was requested. -/
theorem Execution.outcome_eq_cancelled {e : Execution} :
    e.outcome = .cancelled ↔ e.status = .cancelRequested := by
  unfold Execution.outcome
  split_ifs with h <;> simp [h]

/-- An execution that ends is cancelled when its cancellation was requested. -/
theorem Execution.isCancelled_of_outcome {e e' : Execution} (hactive : e.status.isTerminal = false)
    (hstatus : e'.status = e.outcome) : e'.IsCancelled ↔ e.IsCancelled := by
  have hnot : e.status ≠ .cancelled := by
    intro h
    rw [h] at hactive
    cases hactive
  have hterminal : e'.status ≠ .cancelRequested := by
    intro h
    have := e.outcome_isTerminal
    rw [← hstatus, h] at this
    cases this
  simp only [Execution.IsCancelled, hterminal, false_or, hnot, or_false]
  rw [hstatus, Execution.outcome_eq_cancelled]

/-- Work neither cancels an execution nor takes a cancellation back. -/
theorem ExecutionStep.isCancelled_iff {e e' : Execution} (h : ExecutionStep e e') :
    e'.IsCancelled ↔ e.IsCancelled := by
  cases h with
  | claimed now hactive =>
    have hrunning : (e.claim now).IsActive := .inr rfl
    exact iff_of_false hrunning.not_isCancelled hactive.not_isCancelled
  | finished now hactive hfinished =>
    refine Execution.isCancelled_of_outcome hactive ?_
    rw [Execution.finish, if_pos hfinished]
  | terminalized now hstuck =>
    exact Execution.isCancelled_of_outcome (Execution.not_terminal_of_stuck hstuck) rfl
  | requeued | staged | published | expired | timedOut => exact Iff.rfl

theorem ExecutionSteps.isCancelled_iff {e e' : Execution} (h : ExecutionSteps e e') :
    e'.IsCancelled ↔ e.IsCancelled := by
  induction h with
  | refl => exact Iff.rfl
  | tail _ hstep ih => exact hstep.isCancelled_iff.trans ih

/-! ### Pages of terminal executions -/

/-- The page is still worked on. -/
def PageStatus.isOutstanding : PageStatus → Bool
  | .queued | .leased | .persisting => true
  | .succeeded | .failed | .skipped | .cancelled => false

/-- The pages of an execution identifier. -/
def pagesIn (pages : List Page) (executionId : Uuid) : List Page :=
  pages.filter fun page ↦ decide (page.executionId = executionId)

/-- No page of the execution is worked on. -/
def NoneOutstanding (pages : List Page) (executionId : Uuid) : Prop :=
  ∀ page ∈ pages, page.executionId = executionId → page.status.isOutstanding = false

/-- An update of pages that are worked on leaves the others alone. -/
theorem pagesIn_update {sel : Page → Bool} {set : Page → Page} {pages : List Page}
    {executionId : Uuid} (h : NoneOutstanding pages executionId)
    (hsel : ∀ page ∈ pages, sel page = true → page.status.isOutstanding = true)
    (hset : ∀ page, (set page).executionId = page.executionId) :
    pagesIn (Table.update sel set pages) executionId = pagesIn pages executionId := by
  refine Table.filter_update _ (fun page hpage hid ↦ ?_) fun page hpage hsel' ↦ ?_
  · rw [← Bool.not_eq_true]
    intro hsel'
    have hnone := h page hpage (of_decide_eq_true hid)
    rw [hsel page hpage hsel'] at hnone
    cases hnone
  · rw [hset, decide_eq_false_iff_not]
    intro hid
    have hnone := h page hpage hid
    rw [hsel page hpage hsel'] at hnone
    cases hnone

/-- Pages of the same execution are outstanding as before. -/
theorem NoneOutstanding.congr {pages pages' : List Page} {executionId : Uuid}
    (h : NoneOutstanding pages executionId)
    (heq : pagesIn pages' executionId = pagesIn pages executionId) :
    NoneOutstanding pages' executionId := by
  intro page hpage hid
  have hmem : page ∈ pagesIn pages' executionId := List.mem_filter.2 ⟨hpage, decide_eq_true hid⟩
  rw [heq] at hmem
  exact h page (List.mem_of_mem_filter hmem) hid

/-- A page leased under a lease is the one that the key of the lease selects. -/
theorem outstanding_of_hasKey (hkeyed : Keyed s) {lease : PageLease} {page : Page}
    (hpage : page ∈ s.pages) (hleased : page.isLeasedUnder lease = true) :
    ∀ other ∈ s.pages, other.hasKey lease.retentionMonth lease.pageId = true →
      other.status.isOutstanding = true := by
  intro other hother hkey
  obtain ⟨hmonth, hid, hstatus, -⟩ := isLeasedUnder_iff.1 hleased
  have hpageKey : page.hasKey lease.retentionMonth lease.pageId = true := by
    simp [Page.hasKey, hmonth, hid]
  rw [(hasKey_iff_of_keyed hkeyed hpage hpageKey other hother).1 hkey, hstatus]
  rfl

/-- A reclaim leaves the pages of an execution alone that has none outstanding. -/
theorem pagesIn_reclaimed {executionId : Uuid} (clock : ReclaimClock) (locks : ReclaimLocks)
    (h : NoneOutstanding s.pages executionId) :
    pagesIn (s.reclaimed clock locks).pages executionId = pagesIn s.pages executionId := by
  have hleases : pagesIn ((s.deliveriesReclaimed clock).leasesReclaimed clock locks).pages
      executionId = pagesIn s.pages executionId := by
    refine pagesIn_update h (fun page _ hsel ↦ ?_) fun _ ↦ rfl
    simp only [reclaimedPage, Page.isExpired, Bool.and_eq_true, decide_eq_true_eq] at hsel
    rw [hsel.2.1]
    rfl
  refine Eq.trans (pagesIn_update (h.congr hleases) (fun page _ hsel ↦ ?_) fun _ ↦ rfl) hleases
  simp only [overduePage, Bool.and_eq_true, decide_eq_true_eq] at hsel
  rw [hsel.2]
  rfl

/-- A transition leaves the pages of an execution alone that has none outstanding. -/
theorem Transition.pagesIn {sys sys' : System} (h : Transition env sys sys')
    (hkeyed : sys.Keyed) {e : Execution} (he : e ∈ sys.store.executions)
    (hnone : NoneOutstanding sys.store.pages e.id) :
    pagesIn sys'.store.pages e.id = pagesIn sys.store.pages e.id := by
  obtain ⟨_, h⟩ := h
  cases h with
  | unchanged | idle | stale | analyticsClaimed | analyticsRetried | eventsMoved => rfl
  | started now receivedAt envelope url =>
    have hne : sys.store.nextUuid ≠ e.id := (hkeyed.store.executionFresh e he).ne'
    simp [Crawler.pagesIn, Store.started, List.filter_append, seedPage, hne]
  | cancelled now receivedAt envelope e₀ =>
    refine pagesIn_update hnone (fun page _ hsel ↦ ?_) fun _ ↦ rfl
    simp only [Page.isCancellable, Bool.and_eq_true, Bool.or_eq_true, decide_eq_true_eq] at hsel
    rcases hsel.2 with hstatus | hstatus <;> rw [hstatus] <;> rfl
  | claimed =>
    refine pagesIn_update hnone (fun page _ hsel ↦ ?_) fun _ ↦ rfl
    simp only [Bool.and_eq_true, decide_eq_true_eq] at hsel
    rw [hsel.2]
    rfl
  | extended =>
    refine pagesIn_update hnone (fun page _ hsel ↦ ?_) fun _ ↦ rfl
    rw [(isLeasedUnder_iff.1 hsel).2.2.1]
    rfl
  | requeued now lease result page _ _ hpage hleased =>
    exact pagesIn_update hnone (outstanding_of_hasKey hkeyed.store hpage hleased) fun _ ↦ rfl
  | staged now lease result page added payload outboxId _ hlease hpage hleased _ _ _ hadded =>
    obtain ⟨hmonth, hid, hstatus, -⟩ := isLeasedUnder_iff.1 hleased
    have hexecution := (hkeyed.leases lease hlease).executionId hkeyed.store hpage
      (by simp [Page.hasKey, hmonth, hid])
    have hnil : Crawler.pagesIn added e.id = [] := by
      refine List.filter_eq_nil_iff.2 fun new hnew heq ↦ ?_
      obtain ⟨url, hshape⟩ := hadded.shape new hnew
      rw [hshape] at heq
      have hout := hnone page hpage (hexecution.trans (of_decide_eq_true heq))
      rw [hstatus] at hout
      cases hout
    have hupdate := @pagesIn_update _ (Page.stage result.terminalStatus) _ _ hnone
      (outstanding_of_hasKey hkeyed.store hpage hleased) fun _ ↦ rfl
    rw [← hupdate, ← List.append_nil (Crawler.pagesIn (Table.update _ _ _) _), ← hnil]
    exact List.filter_append _ _
  | published =>
    refine pagesIn_update hnone (fun page _ hsel ↦ ?_) fun _ ↦ rfl
    simp only [Bool.and_eq_true, decide_eq_true_eq] at hsel
    rw [hsel.2]
    rfl
  | reclaimed clock locks s' _ _ hevents =>
    rw [(progressEvents_tables hevents).2.1]
    exact pagesIn_reclaimed clock locks hnone

/-! ### Terminal executions are final -/

/-- A terminal execution has no page that is worked on. -/
theorem Conserved.noneOutstanding (h : Conserved s) {e : Execution} (he : e ∈ s.executions)
    (hterminal : e.status.isTerminal = true) : NoneOutstanding s.pages e.id := by
  intro page hpage hid
  have hpos := h.counted.pos he hpage hid
  have hzero := (h.executions e he).terminal hterminal
  cases hstatus : page.status <;> rw [hstatus, Execution.count] at hpos <;>
    first | rfl | omega

/-- A change leaves a terminal execution as it is. -/
theorem Change.terminal (h : Change env s s') (hkeyed : Keyed s) (hpersists : Persists s s')
    {e : Execution} (he : e ∈ s.executions) (hterminal : e.status.isTerminal = true) :
    e ∈ s'.executions := by
  obtain ⟨e', he', hfixed⟩ := hpersists.executions e he
  have hid := (Execution.of_fixed_eq hfixed).1
  cases h with
  | worked hevolves =>
    obtain ⟨e₀, he₀, hsteps⟩ := hevolves e' he'
    have hid₀ := (Execution.of_fixed_eq hsteps.fixed).1
    obtain rfl := hkeyed.execution_eq he₀ he (hid₀.symm.trans hid)
    rwa [← hsteps.eq_of_terminal hterminal]
  | started now receivedAt envelope url hvalid hnew hs' =>
    rw [hs']
    exact List.mem_append_left _ he
  | cancelled now receivedAt envelope e₀ hvalid he₀ hscan hactive hexecutions =>
    rcases hexecutions e' he' with rfl | ⟨hold, -⟩
    · obtain rfl := hkeyed.execution_eq he₀ he hid
      rw [hactive] at hterminal
      cases hterminal
    · rwa [← hkeyed.execution_eq hold he hid]

/-! ### Final statuses -/

/-- A cancellation of the scan was applied. -/
def WasCancelled (messages : List InboxMessage) (scanId : Uuid) : Prop :=
  ∃ message ∈ messages, message.aggregateId = scanId ∧
    message.messageType = .scanCancelRequested ∧ message.outcome = .applied

instance (messages : List InboxMessage) (scanId : Uuid) :
    Decidable (WasCancelled messages scanId) :=
  inferInstanceAs (Decidable (∃ message ∈ messages, _))

/-- The status of an execution that has ended, from its cancellation and its counters. -/
def finalStatus (cancelled : Prop) [Decidable cancelled] (succeeded unsuccessful : ℤ) :
    ExecutionStatus :=
  if cancelled then .cancelled
  else if succeeded > 0 ∧ unsuccessful = 0 then .completed
  else if succeeded > 0 then .partialSuccess
  else .failed

/-- The inbox is about known scans, and executions are cancelled when it says so. -/
structure Cancellations (s : Store) : Prop where
  known : ∀ message ∈ s.inboxMessages, ∃ e ∈ s.executions, e.scanId = message.aggregateId
  iff : ∀ e ∈ s.executions, e.IsCancelled ↔ WasCancelled s.inboxMessages e.scanId

/-- Messages that cancel nothing leave the scan as cancelled as before. -/
theorem wasCancelled_append {messages added : List InboxMessage} {scanId : Uuid}
    (h : ∀ message ∈ added, message.outcome = .applied → message.messageType =
      .scanCancelRequested → message.aggregateId ≠ scanId) :
    WasCancelled (messages ++ added) scanId ↔ WasCancelled messages scanId := by
  constructor
  · rintro ⟨message, hmem, hid, htype, houtcome⟩
    rcases List.mem_append.1 hmem with hmem | hmem
    · exact ⟨message, hmem, hid, htype, houtcome⟩
    · exact absurd hid (h message hmem houtcome htype)
  · rintro ⟨message, hmem, hrest⟩
    exact ⟨message, List.mem_append_left _ hmem, hrest⟩

/-- A scan that the inbox does not know was not cancelled. -/
theorem not_wasCancelled {messages : List InboxMessage} {scanId : Uuid}
    (h : ∀ message ∈ messages, message.aggregateId ≠ scanId) : ¬ WasCancelled messages scanId :=
  fun ⟨message, hmem, hid, _⟩ ↦ h message hmem hid

theorem Change.cancellations (h : Change env s s') (hkeyed : Keyed s) (hpersists : Persists s s')
    (hc : Cancellations s) : Cancellations s' := by
  have hknown : ∀ scanId, (∃ e ∈ s.executions, e.scanId = scanId) →
      ∃ e ∈ s'.executions, e.scanId = scanId := by
    rintro scanId ⟨e, he, rfl⟩
    obtain ⟨e', he', hfixed⟩ := hpersists.executions e he
    exact ⟨e', he', (Execution.of_fixed_eq hfixed).2.1⟩
  cases h with
  | worked hevolves hinbox =>
    obtain ⟨stale, hinbox, hstale⟩ := hinbox
    refine ⟨fun message hmem ↦ hknown _ ?_, fun e' he' ↦ ?_⟩
    · rw [hinbox] at hmem
      rcases List.mem_append.1 hmem with hmem | hmem
      · exact hc.known message hmem
      · exact (hstale message hmem).2
    · obtain ⟨e, he, hsteps⟩ := hevolves e' he'
      rw [hsteps.isCancelled_iff, hc.iff e he, hinbox, wasCancelled_append,
        (Execution.of_fixed_eq hsteps.fixed).2.1]
      intro message hmem happlied
      rw [(hstale message hmem).1] at happlied
      cases happlied
  | started now receivedAt envelope url hvalid hnew hs' =>
    subst hs'
    have hid := (ScanCommandEnvelope.limits_of_validate hvalid).1
    have hfresh : ∀ scanId, WasCancelled (s.inboxMessages ++
        [envelope.inboxRow env .applied receivedAt]) scanId ↔
          WasCancelled s.inboxMessages scanId := by
      refine fun scanId ↦ wasCancelled_append fun message hmem _ htype ↦ ?_
      rw [List.mem_singleton.1 hmem] at htype
      cases htype
    refine ⟨fun message hmem ↦ ?_, fun e he ↦ ?_⟩
    · rcases List.mem_append.1 hmem with hmem | hmem
      · exact hknown _ (hc.known message hmem)
      · refine ⟨_, List.mem_append_right _ (List.mem_singleton_self _), ?_⟩
        rw [List.mem_singleton.1 hmem]
        exact hid.symm
    · refine Iff.trans ?_ (hfresh e.scanId).symm
      rcases List.mem_append.1 he with he | he
      · exact hc.iff e he
      · rw [List.mem_singleton.1 he]
        refine iff_of_false (by simp [Execution.IsCancelled, newExecution])
          (not_wasCancelled fun message hmem heq ↦ ?_)
        obtain ⟨e₀, he₀, hscan⟩ := hc.known message hmem
        exact hnew e₀ he₀ (hscan.trans heq)
  | cancelled now receivedAt envelope e hvalid he hscan hactive hexecutions hinbox =>
    have hid := (ScanCancelCommandEnvelope.aggregateId_of_validate hvalid).1
    refine ⟨fun message hmem ↦ hknown _ ?_, fun e' he' ↦ ?_⟩
    · rw [hinbox] at hmem
      rcases List.mem_append.1 hmem with hmem | hmem
      · exact hc.known message hmem
      · rw [List.mem_singleton.1 hmem]
        exact ⟨e, he, hscan.trans hid.symm⟩
    · rw [hinbox]
      rcases hexecutions e' he' with rfl | ⟨hold, hne⟩
      · refine iff_of_true ?_ ⟨_, List.mem_append_right _ (List.mem_singleton_self _),
          hid.trans hscan.symm, rfl, rfl⟩
        simp only [Execution.IsCancelled, Execution.cancel]
        split_ifs <;> simp
      · rw [hc.iff e' hold, wasCancelled_append]
        intro message hmem _ _ heq
        rw [List.mem_singleton.1 hmem] at heq
        have hsame : e'.scanId = e.scanId := heq.symm.trans (hid.trans hscan.symm)
        exact hne (congrArg Execution.id (Table.eq_of_key_eq hkeyed.scanIds hold he hsame))

/-! ### Every run -/

/-- Conservation, and cancellations as the inbox says. -/
structure System.Cancellations (sys : System) : Prop where
  conserved : sys.Conserved
  cancellations : Crawler.Cancellations sys.store

theorem cancellations_after (env : Env) (actions : List Action) :
    (System.after env actions).Cancellations := by
  have hinit : System.Cancellations {} := ⟨conserved_after env [], by simp, by simp⟩
  refine after_invariant hinit (fun h hsys ↦ ?_) actions
  obtain ⟨hconserved, hlive, hchange⟩ := h.conserved hsys.conserved
  obtain ⟨-, hpersists⟩ := h.keyed hsys.conserved.keyed
  exact ⟨⟨h.system_keyed hsys.conserved.keyed, hconserved, hlive⟩,
    hchange.cancellations hsys.conserved.keyed.store hpersists hsys.cancellations⟩

/-- A terminal execution has its final status, and so has its public status. -/
theorem status_of_terminal {e : Execution} (h : e.WellFormed)
    (hterminal : e.status.isTerminal = true) {cancelled : Prop} [Decidable cancelled]
    (hcancelled : e.IsCancelled ↔ cancelled) :
    e.status = finalStatus cancelled e.succeededCount e.unsuccessfulCount ∧
      e.publicStatus = finalStatus cancelled e.succeededCount e.unsuccessfulCount := by
  have hnot : e.status ≠ .cancelRequested := by
    intro hstatus
    rw [hstatus] at hterminal
    cases hterminal
  rw [Execution.publicStatus, publicStatus, hterminal, if_neg (by decide)]
  by_cases hstatus : e.status = .cancelled
  · have : cancelled := hcancelled.1 (.inr hstatus)
    simp [finalStatus, hstatus, this]
  · have hfalse : ¬ cancelled := fun h ↦ (hcancelled.2 h).elim hnot hstatus
    refine ⟨?_, ?_⟩
    · rw [h.outcome hterminal hstatus, Execution.outcome, if_neg hnot, finalStatus, if_neg hfalse]
      rfl
    · rw [if_neg hstatus, finalStatus, if_neg hfalse]

/-- Terminal executions are final, and no execution is left stuck: a transaction leaves a terminal
execution and its pages as they are; an execution without queued, leased or persisting pages is
terminal; and a terminal execution has the status that its cancellation and its counters determine,
whichever transaction ended it, in the table and in public. -/
theorem executions_terminate (env : Env) (actions : List Action) :
    (∀ action, ∀ e ∈ (System.after env actions).store.executions, e.status.isTerminal = true →
      e ∈ (System.after env (actions ++ [action])).store.executions ∧
      pagesIn (System.after env (actions ++ [action])).store.pages e.id =
        pagesIn (System.after env actions).store.pages e.id) ∧
    ∀ e ∈ (System.after env actions).store.executions,
      (e.queuedCount = 0 ∧ e.leasedCount = 0 ∧ e.persistingCount = 0 ↔
        e.status.isTerminal = true) ∧
      (e.status.isTerminal = true →
        e.status = finalStatus
          (WasCancelled (System.after env actions).store.inboxMessages e.scanId)
          e.succeededCount e.unsuccessfulCount) ∧
      e.publicStatus = e.status := by
  obtain ⟨⟨hkeyed, hconserved, hlive⟩, hcancellations⟩ := cancellations_after env actions
  refine ⟨fun action e he hterminal ↦ ?_, fun e he ↦ ?_⟩
  · have hstep : Transition env (System.after env actions)
        (System.after env (actions ++ [action])) := by
      rw [System.after, System.after, run_concat]
      exact step_transition env _ action
    obtain ⟨-, hpersists⟩ := hstep.keyed hkeyed
    obtain ⟨-, -, hchange⟩ := hstep.conserved ⟨hkeyed, hconserved, hlive⟩
    exact ⟨hchange.terminal hkeyed.store hpersists he hterminal,
      hstep.pagesIn hkeyed he (hconserved.noneOutstanding he hterminal)⟩
  · have hfinal := fun hterminal ↦ status_of_terminal (hconserved.executions e he) hterminal
      (hcancellations.iff e he)
    refine ⟨⟨fun hzero ↦ ?_, (hconserved.executions e he).terminal⟩, fun hterminal ↦
      (hfinal hterminal).1, ?_⟩
    · by_contra hactive
      have hpos := hlive e he (Bool.not_eq_true _ ▸ hactive)
      simp only [Execution.outstanding] at hpos
      omega
    · by_cases hterminal : e.status.isTerminal = true
      · exact (hfinal hterminal).2.trans (hfinal hterminal).1.symm
      · rw [Execution.publicStatus, publicStatus, if_pos (Bool.not_eq_true _ ▸ hterminal)]

/-- The sample scan is in public what it is in its table. -/
theorem executions_terminate_sample :
    (newExecution Env.sample 1 (.sample 5) (Utf8.ofText "https://example.com/") 1).publicStatus =
      .queued :=
  ((executions_terminate Env.sample [.acceptCommand 1 1 (.sample 5)]).2 _
    (List.mem_singleton.2 rfl)).2.2

end WebLens.Crawler
