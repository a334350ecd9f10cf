import WebLens.Crawler.Messages
import WebLens.Scanning.Model

/-!
# Steps of the two services

`Stepped` lists what a step of the services does, with what it checked. The Control Plane writes,
the crawler makes a transition, and what both keep holds of every state that steps reach
(`after_invariant`).
-/

set_option autoImplicit false
set_option relaxedAutoImplicit false

namespace WebLens.Scanning

open Lib Lib.Table Lib.Transaction ControlPlane
open Capture (Uuid)
open Crawler (Instant)

variable {env : Env} {s s' : State}

/-- What a step of the services does. -/
inductive Stepped (env : Env) (s : State) : State → Prop
  /-- A transaction failed, or what it needs is not there. -/
  | idle : Stepped env s s
  /-- The Control Plane served a user. -/
  | requested (t : WorkflowTables) (hwrites : Writes env.control False False s.control t) :
      Stepped env s { s with control := t }
  /-- The Control Plane consumed an event of the site clone worker. -/
  | siteCloneConsumed (envelope : SiteClone.SiteCloneEventEnvelope) (outcome : ConsumeOutcome)
      (t : WorkflowTables) (henvelope : envelope ∈ s.siteCloneEvents)
      (hconsumed : SiteCloneEventConsumed env.control envelope s.control outcome t) :
      Stepped env s { s with control := t }
  /-- A dispatcher claimed, completed or returned commands. -/
  | moved (records : List OutboxRecord) (sel : OutboxRow → Bool) (set : OutboxRow → OutboxRow)
      (hmove : OutboxMove s.control.outbox sel set)
      (hrecords : ∀ record ∈ records, record.command ∈ s.control.commands)
      (hdelivered : ∀ row, sel row = true → (set row).status = .delivered →
        ∃ record, record.messageId = row.messageId ∧ (record ∈ s.acknowledged ∨
          record ∈ s.records ∧ record.command.aggregateType = "SITE_CLONE")) :
      Stepped env s { s with
        control := { s.control with outbox := Table.update sel set s.control.outbox }
        records := records ++ s.records }
  /-- The crawler worked. -/
  | crawled (sys : Crawler.System) (htransition : Crawler.Transition env.crawler s.crawler sys)
      (hworked : Crawler.Worked (fun id ↦ ∃ message ∈ s.accepted, message.messageId = id)
        s.crawler.store sys.store) (hkept : s.crawler.messages ⊆ sys.messages)
      (hmessages : ∀ message ∈ sys.messages, message ∈ s.crawler.messages ∨
        ∃ event ∈ s.crawler.store.outboxEvents, message.Of event) :
      Stepped env s { s with crawler := sys }
  /-- The crawler accepted a command. -/
  | commandAccepted (now receivedAt : Instant) (record : OutboxRecord)
      (envelope : Crawler.ScanCommandEnvelope) (duplicate : Bool) (store : Crawler.Store)
      (hrecord : record ∈ s.records) (hcommand : record.command = .scanRequested envelope)
      (haccepted : Returns (Crawler.acceptCommand env.crawler now receivedAt envelope)
        s.crawler.store duplicate store) :
      Stepped env s { s with
        crawler := { s.crawler with store := store }
        acknowledged := record :: s.acknowledged }
  /-- The crawler accepted a cancellation. -/
  | cancellationAccepted (now receivedAt : Instant) (record : OutboxRecord)
      (envelope : Crawler.ScanCancelCommandEnvelope) (duplicate : Bool) (store : Crawler.Store)
      (hrecord : record ∈ s.records) (hcommand : record.command = .scanCancelRequested envelope)
      (haccepted : Returns (Crawler.acceptCancellation env.crawler now receivedAt envelope)
        s.crawler.store duplicate store) :
      Stepped env s { s with
        crawler := { s.crawler with store := store }
        acknowledged := record :: s.acknowledged }
  /-- The Control Plane consumed an event of the crawler. -/
  | eventAccepted (message : Crawler.OutboxMessage) (outcome : ConsumeOutcome)
      (t : WorkflowTables) (hmessage : message ∈ s.crawler.messages)
      (hconsumed : ScanEventConsumed env.control message.payload s.control outcome t) :
      Stepped env s { s with control := t, accepted := message :: s.accepted }
  /-- The site clone worker sent an event. -/
  | drawn (envelope : SiteClone.SiteCloneEventEnvelope) :
      Stepped env s (s.sendSiteCloneEvent envelope)

/-! ### Every step -/

/-- The records of a claim are for commands of the outbox. -/
theorem claimRows_command {dispatcher : Dispatcher} {now leaseUntil : Instant}
    {locked : List Uuid} {workerId : Uuid} {limit : ℕ} {rows : List OutboxRow}
    {record : OutboxRecord}
    (h : record ∈ (claimRows dispatcher now leaseUntil locked workerId limit rows).1) :
    record.command ∈ rows.map OutboxRow.command := by
  obtain ⟨row', hrow', rfl⟩ := List.mem_map.1 h
  obtain ⟨row, hrow, rfl⟩ := mem_update.1 (List.mem_of_mem_filter hrow')
  refine List.mem_map.2 ⟨row, hrow, ?_⟩
  split_ifs <;> rfl

theorem stepControl_stepped (env : Env) (s : State) (action : WorkflowAction) :
    Stepped env s (s.stepControl env action) := by
  have hrequest : action.isRequest = true →
      Stepped env s { s with control := s.control.step env.control action } :=
    fun h ↦ .requested _ (request_writes s.control h)
  cases action with
  | consumeScanEvent => exact .idle
  | consumeSiteCloneEvent envelope =>
    rw [State.stepControl]
    split_ifs with henvelope
    · rw [WorkflowTables.step]
      rcases commit_cases (consumeSiteCloneEvent env.control envelope) s.control with
        ⟨outcome, t, hcommit, h⟩ | ⟨e, hcommit⟩
      · rw [hcommit]
        exact .siteCloneConsumed envelope outcome t henvelope (consumeSiteCloneEvent_cases h)
      · rw [hcommit]
        exact .idle
    · exact .idle
  | claim dispatcher now leaseUntil locked workerId limit =>
    exact .moved _ _ _ (.claimed now leaseUntil workerId _ fun row _ hsel ↦
        claimRows_due (of_decide_eq_true hsel))
      (fun record h ↦ claimRows_command h)
      fun row _ hstatus ↦ absurd hstatus Crawler.DeliveryStatus.noConfusion
  | complete record =>
    rw [State.stepControl]
    split_ifs with hrecord
    · refine .moved [] _ _ (.delivered record) (fun _ h ↦ absurd h List.not_mem_nil)
        fun row hsel _ ↦ ⟨record, ?_, hrecord⟩
      exact (OutboxRow.isClaimedBy_iff.1 hsel).1.symm
    · exact .idle
  | retry now leastBits record =>
    exact .moved [] _ _ (.returned record _) (fun _ h ↦ absurd h List.not_mem_nil)
      fun row _ hstatus ↦ absurd hstatus (Crawler.retryStatus_ne_delivered _)
  | createWebsite => exact hrequest rfl
  | archiveWebsite => exact hrequest rfl
  | createScan => exact hrequest rfl
  | cancelScan => exact hrequest rfl
  | createSiteClone => exact hrequest rfl
  | cancelSiteClone => exact hrequest rfl

theorem stepCrawler_stepped (env : Env) (s : State) (action : Crawler.Action) :
    Stepped env s (s.stepCrawler env action) := by
  have hstep : action.isCommand = false →
      (∀ id, action.completes id → ∃ message ∈ s.accepted, message.messageId = id) →
      Stepped env s { s with crawler := s.crawler.step env.crawler action } := by
    intro hwork hcompletes
    have hworked := Crawler.step_worked env.crawler s.crawler hwork
    obtain ⟨hkept, hmessages⟩ := Crawler.step_messages env.crawler s.crawler action
    refine .crawled _ (Crawler.step_transition env.crawler s.crawler action)
      ⟨hworked.inbox, fun event hevent hstatus ↦ ?_⟩ hkept hmessages
    exact (hworked.delivered event hevent hstatus).imp_right (hcompletes _)
  cases action with
  | acceptCommand => exact .idle
  | acceptCancellation => exact .idle
  | completeEvent now message =>
    rw [State.stepCrawler]
    split_ifs with hmessage
    · exact hstep rfl fun id hid ↦ ⟨message, hmessage, hid⟩
    · exact .idle
  | claimPage => exact hstep rfl fun _ ↦ False.elim
  | extendPageLease => exact hstep rfl fun _ ↦ False.elim
  | commitPageResult => exact hstep rfl fun _ ↦ False.elim
  | claimAnalytics => exact hstep rfl fun _ ↦ False.elim
  | completeAnalytics => exact hstep rfl fun _ ↦ False.elim
  | retryAnalytics => exact hstep rfl fun _ ↦ False.elim
  | claimEvents => exact hstep rfl fun _ ↦ False.elim
  | retryEvent => exact hstep rfl fun _ ↦ False.elim
  | reclaimExpired => exact hstep rfl fun _ ↦ False.elim

theorem postCommand_stepped (env : Env) (s : State) (now receivedAt : Instant)
    (record : OutboxRecord) : Stepped env s (s.postCommand env now receivedAt record) := by
  unfold State.postCommand
  split_ifs with hrecord
  · cases hcommand : record.command with
    | scanRequested envelope =>
      rcases commit_cases (Crawler.acceptCommand env.crawler now receivedAt envelope)
        s.crawler.store with ⟨duplicate, store, hcommit, h⟩ | ⟨e, hcommit⟩
      · simp only [Env.answer, hcommit]
        exact .commandAccepted now receivedAt record envelope duplicate store hrecord hcommand h
      · simp only [Env.answer, hcommit]
        exact .idle
    | scanCancelRequested envelope =>
      rcases commit_cases (Crawler.acceptCancellation env.crawler now receivedAt envelope)
        s.crawler.store with ⟨duplicate, store, hcommit, h⟩ | ⟨e, hcommit⟩
      · simp only [Env.answer, hcommit]
        exact .cancellationAccepted now receivedAt record envelope duplicate store hrecord
          hcommand h
      · simp only [Env.answer, hcommit]
        exact .idle
    | siteClone envelope => exact .idle
  · exact .idle

theorem postEvent_stepped (env : Env) (s : State) (now : Instant)
    (message : Crawler.OutboxMessage) : Stepped env s (s.postEvent env now message) := by
  unfold State.postEvent
  split_ifs with hmessage
  · rcases commit_cases (consumeScanEvent env.control now message.payload) s.control with
      ⟨outcome, t, hcommit, h⟩ | ⟨e, hcommit⟩
    · simp only [hcommit]
      exact .eventAccepted message outcome t hmessage (consumeScanEvent_cases h)
    · simp only [hcommit]
      exact .idle
  · exact .idle

theorem step_stepped (env : Env) (s : State) (action : Action) :
    Stepped env s (s.step env action) := by
  cases action with
  | control action => exact stepControl_stepped env s action
  | crawler action => exact stepCrawler_stepped env s action
  | postCommand now receivedAt record => exact postCommand_stepped env s now receivedAt record
  | postEvent now message => exact postEvent_stepped env s now message
  | siteCloneEvent envelope => exact .drawn envelope

/-- What every step keeps holds after every run. -/
theorem after_invariant {P : State → Prop} (hinit : P {})
    (hstep : ∀ {s s'}, Stepped env s s' → P s → P s') (actions : List Action) :
    P (State.after env actions) :=
  run_invariant (fun s action h ↦ hstep (step_stepped env s action) h) hinit actions

end WebLens.Scanning
