import WebLens.Scanning.Steps

/-!
# Executions and their scans

Each service keeps what it keeps alone. Beyond that, an execution of the crawler is one of a scan of
the Control Plane, with the owner and the limits that the user was granted, and the crawler cancels
only what a user asked to cancel.
-/

set_option autoImplicit false
set_option relaxedAutoImplicit false

namespace WebLens.Scanning

open Lib Lib.Table Lib.Transaction ControlPlane
open Capture (Uuid)
open Crawler (Instant)

variable {env : Env} {s s' : State}

/-! ### Each service alone -/

theorem Stepped.control (h : Stepped env s s') :
    Writes env.control True True s.control s'.control := by
  cases h with
  | idle => exact .refl
  | requested t hwrites => exact hwrites.mono False.elim False.elim
  | siteCloneConsumed envelope outcome t henvelope hconsumed =>
    exact hconsumed.writes.mono id False.elim
  | moved records sel set hmove => exact (Write.outboxMoved trivial sel set hmove).writes
  | crawled => exact .refl
  | commandAccepted => exact .refl
  | cancellationAccepted => exact .refl
  | eventAccepted message outcome t hmessage hconsumed => exact hconsumed.writes.mono id False.elim
  | drawn => exact .refl

theorem Stepped.crawler (h : Stepped env s s') :
    Crawler.Transition env.crawler s.crawler s'.crawler := by
  have hcommit : ∀ {α : Type} {body : Crawler.Tx α} {a : α} {store : Crawler.Store},
      Returns body s.crawler.store a store → (commit body s.crawler.store).2 = store :=
    fun h ↦ congrArg Prod.snd (commit_ok_iff.2 h)
  cases h with
  | idle => exact ⟨[], .unchanged⟩
  | requested => exact ⟨[], .unchanged⟩
  | siteCloneConsumed => exact ⟨[], .unchanged⟩
  | moved => exact ⟨[], .unchanged⟩
  | crawled sys htransition => exact htransition
  | commandAccepted now receivedAt record envelope duplicate store hrecord hcommand haccepted =>
    have hstep := Crawler.step_transition env.crawler s.crawler
      (.acceptCommand now receivedAt envelope)
    rw [Crawler.System.step, hcommit haccepted] at hstep
    exact hstep
  | cancellationAccepted now receivedAt record envelope duplicate store hrecord hcommand
      haccepted =>
    have hstep := Crawler.step_transition env.crawler s.crawler
      (.acceptCancellation now receivedAt envelope)
    rw [Crawler.System.step, hcommit haccepted] at hstep
    exact hstep
  | eventAccepted => exact ⟨[], .unchanged⟩
  | drawn => exact ⟨[], .idle⟩

/-- Each service keeps its own invariants. -/
structure Healthy (env : Env) (s : State) : Prop where
  sound : Sound env.control s.control
  telling : s.crawler.Telling
  cancellations : Crawler.Cancellations s.crawler.store

theorem Stepped.healthy (h : Stepped env s s') (hs : Healthy env s) : Healthy env s' where
  sound := h.control.invariant Sound.write hs.sound
  telling := (h.crawler.telling hs.telling).1
  cancellations := by
    have hkeyed := hs.telling.conserved.keyed
    exact (h.crawler.conserved hs.telling.conserved).2.2.cancellations hkeyed.store
      (h.crawler.keyed hkeyed).2 hs.cancellations

theorem healthy_empty : Healthy env {} where
  sound := sound_empty
  telling := Crawler.telling_after env.crawler []
  cancellations := (Crawler.cancellations_after env.crawler []).cancellations

/-- The scans of the Control Plane only advance. -/
theorem Stepped.scans_grow (h : Stepped env s s') (hs : Healthy env s) :
    Table.Grows Scan.Advances s.control.scans s'.control.scans :=
  h.control.scans_grow hs.sound.numbered

/-! ### The scan of an execution -/

/-- The execution is one of the scan, within the limits that its user was granted. -/
structure ExecutionOf (scan : Scan) (e : Crawler.Execution) : Prop where
  scanId : e.scanId = scan.id
  ownerId : e.ownerId = scan.requestedByUserId
  websiteId : e.websiteId = scan.websiteId
  maxPages : e.maxPages = scan.maxPages
  maxDepth : e.maxDepth = scan.maxDepth
  maxResponseBytes : e.maxResponseBytes = scan.maxResponseBytes
  maxDurationSeconds : e.maxDurationSeconds = scan.maxDurationSeconds
  maxRedirects : e.maxRedirects = scan.maxRedirects
  maxConcurrency : e.maxConcurrency = scan.concurrency
  collectorVersion : e.collectorVersion = Utf8.ofText scan.collectorVersion

theorem ExecutionOf.of_fixed {scan : Scan} {e e' : Crawler.Execution} (h : ExecutionOf scan e)
    (hfixed : e'.fixed = e.fixed) : ExecutionOf scan e' where
  scanId := (congrArg Crawler.Execution.scanId hfixed).trans h.scanId
  ownerId := (congrArg Crawler.Execution.ownerId hfixed).trans h.ownerId
  websiteId := (congrArg Crawler.Execution.websiteId hfixed).trans h.websiteId
  maxPages := (congrArg Crawler.Execution.maxPages hfixed).trans h.maxPages
  maxDepth := (congrArg Crawler.Execution.maxDepth hfixed).trans h.maxDepth
  maxResponseBytes := (congrArg Crawler.Execution.maxResponseBytes hfixed).trans
    h.maxResponseBytes
  maxDurationSeconds := (congrArg Crawler.Execution.maxDurationSeconds hfixed).trans
    h.maxDurationSeconds
  maxRedirects := (congrArg Crawler.Execution.maxRedirects hfixed).trans h.maxRedirects
  maxConcurrency := (congrArg Crawler.Execution.maxConcurrency hfixed).trans h.maxConcurrency
  collectorVersion := (congrArg Crawler.Execution.collectorVersion hfixed).trans
    h.collectorVersion

theorem ExecutionOf.of_same {scan next : Scan} {e : Crawler.Execution} (h : ExecutionOf scan e)
    (hsame : scan.Same next) : ExecutionOf next e where
  scanId := h.scanId.trans hsame.id.symm
  ownerId := h.ownerId.trans hsame.requestedByUserId.symm
  websiteId := h.websiteId.trans hsame.websiteId.symm
  maxPages := h.maxPages.trans hsame.maxPages.symm
  maxDepth := h.maxDepth.trans hsame.maxDepth.symm
  maxResponseBytes := h.maxResponseBytes.trans hsame.maxResponseBytes.symm
  maxDurationSeconds := h.maxDurationSeconds.trans hsame.maxDurationSeconds.symm
  maxRedirects := h.maxRedirects.trans hsame.maxRedirects.symm
  maxConcurrency := h.maxConcurrency.trans hsame.concurrency.symm
  collectorVersion := h.collectorVersion.trans (congrArg Utf8.ofText hsame.collectorVersion.symm)

theorem ExecutionOf.started {scan : Scan} {envelope : Crawler.ScanCommandEnvelope}
    (h : ScanRequestedBy scan envelope) (now : Instant) (url : Utf8.ByteString) (id : Uuid) :
    ExecutionOf scan (Crawler.newExecution env.crawler now envelope url id) where
  scanId := h.scanId
  ownerId := h.ownerId
  websiteId := h.websiteId
  maxPages := h.maxPages
  maxDepth := h.maxDepth
  maxResponseBytes := h.maxResponseBytes
  maxDurationSeconds := h.maxDurationSeconds
  maxRedirects := h.maxRedirects
  maxConcurrency := h.maxConcurrency
  collectorVersion := h.collectorVersion

/-- The user has asked to cancel the scan, or it has ended. -/
def IsStopping (scans : List Scan) (scanId : Uuid) : Prop :=
  ∃ scan ∈ scans, scan.id = scanId ∧ scan.status ≠ .queued ∧ scan.status ≠ .running

theorem IsStopping.grows {scans scans' : List Scan} {scanId : Uuid} (h : IsStopping scans scanId)
    (hgrows : Table.Grows Scan.Advances scans scans') : IsStopping scans' scanId := by
  obtain ⟨scan, hscan, hid, hstopping⟩ := h
  obtain ⟨next, hnext, hadvances⟩ := hgrows.exists_of_mem hscan
  exact ⟨next, hnext, hadvances.same.id.trans hid, hadvances.status.stopping hstopping⟩

/-! ### What links the services -/

/-- What the crawler knows comes from the Control Plane. -/
structure Linked (s : State) : Prop where
  records : ∀ record ∈ s.records, record.command ∈ s.control.commands
  executions : ∀ e ∈ s.crawler.store.executions, ∃ scan ∈ s.control.scans, ExecutionOf scan e
  cancellations : ∀ message ∈ s.crawler.store.inboxMessages,
    message.messageType = .scanCancelRequested → IsStopping s.control.scans message.aggregateId
  events : ∀ event ∈ s.crawler.store.outboxEvents,
    event.payload.payload.status = .cancelRequested → IsStopping s.control.scans event.aggregateId

theorem Stepped.commands_subset (h : Stepped env s s') :
    s.control.commands ⊆ s'.control.commands :=
  h.control.invariant (P := fun t : WorkflowTables ↦ s.control.commands ⊆ t.commands)
    (fun hwrite hsubset ↦ List.Subset.trans hsubset hwrite.commands_subset) (List.Subset.refl _)

theorem Stepped.records (h : Stepped env s s') (hlinked : Linked s) :
    ∀ record ∈ s'.records, record.command ∈ s'.control.commands := by
  have hkept : ∀ record ∈ s.records, record.command ∈ s'.control.commands :=
    fun record hrecord ↦ h.commands_subset (hlinked.records record hrecord)
  have hsubset := h.commands_subset
  cases h with
  | moved records sel set hmove hrecords =>
    intro record hrecord
    rcases List.mem_append.1 hrecord with hrecord | hrecord
    · exact hsubset (hrecords record hrecord)
    · exact hkept record hrecord
  | idle => exact hkept
  | requested => exact hkept
  | siteCloneConsumed => exact hkept
  | crawled => exact hkept
  | commandAccepted => exact hkept
  | cancellationAccepted => exact hkept
  | eventAccepted => exact hkept
  | drawn => exact hkept

/-- What the crawler makes of its executions and its inbox without a command. -/
theorem worked_of_inbox {sys sys' : Crawler.System}
    (h : Crawler.Change env.crawler sys.store sys'.store)
    (hinbox : sys'.store.inboxMessages = sys.store.inboxMessages) :
    Crawler.Evolves sys.store sys'.store := by
  cases h with
  | worked hevolves => exact hevolves
  | started now receivedAt envelope url hvalid hnew hs' =>
    rw [hs'] at hinbox
    exact absurd (List.append_right_eq_self.1 hinbox) (List.cons_ne_nil _ _)
  | cancelled now receivedAt envelope e hvalid he hscan hactive hexecutions hadded =>
    rw [hadded] at hinbox
    exact absurd (List.append_right_eq_self.1 hinbox) (List.cons_ne_nil _ _)

/-- A command that a dispatcher holds is justified by a scan. -/
theorem Linked.requestedBy (hlinked : Linked s) (hs : Healthy env s) {record : OutboxRecord}
    (hrecord : record ∈ s.records) {envelope : Crawler.ScanCommandEnvelope}
    (hcommand : record.command = .scanRequested envelope) :
    ∃ scan ∈ s.control.scans, ScanRequestedBy scan envelope := by
  have hmem := hlinked.records record hrecord
  rw [hcommand] at hmem
  exact hs.sound.commanded.justified _ hmem

theorem Linked.cancelledBy (hlinked : Linked s) (hs : Healthy env s) {record : OutboxRecord}
    (hrecord : record ∈ s.records) {envelope : Crawler.ScanCancelCommandEnvelope}
    (hcommand : record.command = .scanCancelRequested envelope) :
    ∃ scan ∈ s.control.scans, ScanCancelledBy scan envelope := by
  have hmem := hlinked.records record hrecord
  rw [hcommand] at hmem
  exact hs.sound.commanded.justified _ hmem

theorem Stepped.executions (h : Stepped env s s') (hlinked : Linked s) (hs : Healthy env s) :
    ∀ e ∈ s'.crawler.store.executions, ∃ scan ∈ s'.control.scans, ExecutionOf scan e := by
  have hgrows := h.scans_grow hs
  have hkept : ∀ e ∈ s.crawler.store.executions, ∀ e' : Crawler.Execution, e'.fixed = e.fixed →
      ∃ scan ∈ s'.control.scans, ExecutionOf scan e' := by
    intro e he e' hfixed
    obtain ⟨scan, hscan, hof⟩ := hlinked.executions e he
    obtain ⟨next, hnext, hadvances⟩ := hgrows.exists_of_mem hscan
    exact ⟨next, hnext, (hof.of_fixed hfixed).of_same hadvances.same⟩
  have hsame : ∀ e ∈ s.crawler.store.executions, ∃ scan ∈ s'.control.scans, ExecutionOf scan e :=
    fun e he ↦ hkept e he e rfl
  cases h with
  | crawled sys htransition hworked =>
    intro e' he'
    obtain ⟨e, he, hsteps⟩ := worked_of_inbox
      (htransition.conserved hs.telling.conserved).2.2 hworked.inbox e' he'
    exact hkept e he e' hsteps.fixed
  | commandAccepted now receivedAt record envelope duplicate store hrecord hcommand haccepted =>
    obtain ⟨-, ⟨-, -, -, rfl⟩ | ⟨-, ⟨-, -, -, -, rfl⟩ | ⟨-, url, -, rfl⟩⟩⟩ :=
      Crawler.acceptCommand_cases haccepted
    · exact hsame
    · exact hsame
    · intro e he
      rcases List.mem_append.1 he with he | he
      · exact hsame e he
      · obtain ⟨scan, hscan, hby⟩ := hlinked.requestedBy hs hrecord hcommand
        rw [List.mem_singleton.1 he]
        exact ⟨scan, hscan, .started hby now url _⟩
  | cancellationAccepted now receivedAt record envelope duplicate store hrecord hcommand
      haccepted =>
    obtain ⟨-, ⟨-, -, -, rfl⟩ | ⟨-, e, he, -, -, ⟨-, rfl⟩ | ⟨-, -, e', he', rfl⟩⟩⟩ :=
      Crawler.acceptCancellation_cases haccepted
    · exact hsame
    · exact hsame
    · intro e₂ he₂
      obtain ⟨e₁, he₁, ⟨-, rfl⟩ | ⟨-, rfl⟩⟩ := Crawler.mem_updateExecution.1 he₂
      · exact hkept e₁ he₁ _ rfl
      · exact hsame e₂ he₁
  | idle => exact hsame
  | requested => exact hsame
  | siteCloneConsumed => exact hsame
  | moved => exact hsame
  | eventAccepted => exact hsame
  | drawn => exact hsame

theorem Stepped.cancellations (h : Stepped env s s') (hlinked : Linked s) (hs : Healthy env s) :
    ∀ message ∈ s'.crawler.store.inboxMessages, message.messageType = .scanCancelRequested →
      IsStopping s'.control.scans message.aggregateId := by
  have hgrows := h.scans_grow hs
  have hkept : ∀ message ∈ s.crawler.store.inboxMessages,
      message.messageType = .scanCancelRequested →
      IsStopping s'.control.scans message.aggregateId :=
    fun message hmessage htype ↦ (hlinked.cancellations message hmessage htype).grows hgrows
  have hadded : ∀ row : Crawler.InboxMessage,
      (row.messageType = .scanCancelRequested → IsStopping s'.control.scans row.aggregateId) →
      ∀ message ∈ s.crawler.store.inboxMessages ++ [row],
        message.messageType = .scanCancelRequested →
        IsStopping s'.control.scans message.aggregateId := by
    intro row hrow message hmessage
    rcases List.mem_append.1 hmessage with hmessage | hmessage
    · exact hkept message hmessage
    · rw [List.mem_singleton.1 hmessage]
      exact hrow
  cases h with
  | crawled sys htransition hworked =>
    intro message hmessage
    rw [hworked.inbox] at hmessage
    exact hkept message hmessage
  | commandAccepted now receivedAt record envelope duplicate store hrecord hcommand haccepted =>
    obtain ⟨-, ⟨-, -, -, rfl⟩ | ⟨-, ⟨-, -, -, -, rfl⟩ | ⟨-, url, -, rfl⟩⟩⟩ :=
      Crawler.acceptCommand_cases haccepted
    · exact hkept
    · exact hadded _ nofun
    · exact hadded _ nofun
  | cancellationAccepted now receivedAt record envelope duplicate store hrecord hcommand
      haccepted =>
    obtain ⟨scan, hscan, hby⟩ := hlinked.cancelledBy hs hrecord hcommand
    have hstopping : IsStopping s.control.scans envelope.aggregateId :=
      ⟨scan, hscan, hby.aggregate.2.1.symm, hby.status⟩
    obtain ⟨-, ⟨-, -, -, rfl⟩ | ⟨-, e, he, -, -, ⟨-, rfl⟩ | ⟨-, -, e', he', rfl⟩⟩⟩ :=
      Crawler.acceptCancellation_cases haccepted
    · exact hkept
    · exact hadded _ fun _ ↦ hstopping
    · exact hadded _ fun _ ↦ hstopping
  | idle => exact hkept
  | requested => exact hkept
  | siteCloneConsumed => exact hkept
  | moved => exact hkept
  | eventAccepted => exact hkept
  | drawn => exact hkept

/-- An execution that is being cancelled in public is so in its row. -/
theorem status_of_public {e : Crawler.Execution} (h : e.publicStatus = .cancelRequested) :
    e.status = .cancelRequested := by
  unfold Crawler.Execution.publicStatus Crawler.publicStatus at h
  split_ifs at h
  exact h

/-- A scan whose execution is being cancelled is stopping. -/
theorem stopping_of_status (hs : Healthy env s)
    (hcancellations : ∀ message ∈ s.crawler.store.inboxMessages,
      message.messageType = .scanCancelRequested → IsStopping s.control.scans message.aggregateId)
    {e : Crawler.Execution} (he : e ∈ s.crawler.store.executions) (hcancelled : e.IsCancelled) :
    IsStopping s.control.scans e.scanId := by
  obtain ⟨message, hmessage, hid, htype, -⟩ := (hs.cancellations.iff e he).1 hcancelled
  rw [← hid]
  exact hcancellations message hmessage htype

theorem Stepped.events (h : Stepped env s s') (hlinked : Linked s) (hs : Healthy env s) :
    ∀ event ∈ s'.crawler.store.outboxEvents, event.payload.payload.status = .cancelRequested →
      IsStopping s'.control.scans event.aggregateId := by
  intro event' hevent' hstatus
  have hgrows := h.scans_grow hs
  rcases (h.crawler.telling hs.telling).2.events event' hevent' with
    ⟨event, hevent, hsame⟩ | ⟨e', he', hreports⟩
  · obtain ⟨-, hid, -, hpayload, -⟩ := hsame.spec
    rw [hpayload] at hstatus
    rw [hid]
    exact (hlinked.events event hevent hstatus).grows hgrows
  · obtain ⟨-, hid, -, hpayload, -⟩ := hreports.spec
    rw [hpayload] at hstatus
    rw [hid]
    exact stopping_of_status (h.healthy hs) (h.cancellations hlinked hs) he'
      (.inl (status_of_public hstatus))

theorem Stepped.linked (h : Stepped env s s') (hs : Healthy env s) (hlinked : Linked s) :
    Linked s' where
  records := h.records hlinked
  executions := h.executions hlinked hs
  cancellations := h.cancellations hlinked hs
  events := h.events hlinked hs

theorem linked_empty : Linked {} where
  records := fun _ h ↦ absurd h List.not_mem_nil
  executions := fun _ h ↦ absurd h List.not_mem_nil
  cancellations := fun _ h ↦ absurd h List.not_mem_nil
  events := fun _ h ↦ absurd h List.not_mem_nil

end WebLens.Scanning
