import WebLens.Scanning.Linked

/-!
# Messages between the services

A message that its sender counts as delivered has been taken by its receiver: a delivered command is
in the inbox of the crawler, and a delivered event in the inbox of the Control Plane. What a
publisher holds is an event of the outbox, and an identifier stands for one event.
-/

set_option autoImplicit false
set_option relaxedAutoImplicit false

namespace WebLens.Scanning

open Lib Lib.Table Lib.Transaction ControlPlane
open Capture (Uuid)
open Crawler (Instant)

variable {env : Env} {s s' : State}

/-- The events of the crawler. -/
def State.events (s : State) : List Crawler.OutboxEvent :=
  s.crawler.store.outboxEvents

/-- The identifiers of the commands that the crawler has taken. -/
def State.taken (s : State) : List Uuid :=
  s.crawler.store.inboxMessages.map Crawler.InboxMessage.messageId

/-- The Control Plane recorded the event with the hash of its payload. -/
def RecordOf (env : Env) (record : InboxRecord) (event : Crawler.OutboxEvent) : Prop :=
  event.messageId = record.messageId ∧
    record.payloadSha256 = env.control.sha256 (env.control.writeScanPayload event.payload.payload)

/-- What was delivered was taken, and what is held or recorded is known. -/
structure Carried (env : Env) (s : State) : Prop where
  messages : ∀ message ∈ s.crawler.messages, ∃ event ∈ s.events, message.Of event
  acknowledged : ∀ record ∈ s.acknowledged, record ∈ s.records ∧ record.messageId ∈ s.taken
  accepted : ∀ message ∈ s.accepted, message.messageId ∈ s.control.consumed
  commands : ∀ row ∈ s.control.outbox, row.status = .delivered →
    row.command.aggregateType = "SITE_CLONE" ∨ row.messageId ∈ s.taken
  events : ∀ event ∈ s.events, event.status = .delivered → event.messageId ∈ s.control.consumed
  recorded : ∀ record ∈ s.control.inbox, (∃ event ∈ s.events, RecordOf env record event) ∨
    ∃ envelope ∈ s.siteCloneEvents, envelope.messageId = record.messageId
  distinct : ∀ envelope ∈ s.siteCloneEvents,
    envelope.messageId < s.crawler.store.nextUuid ∧
      ∀ event ∈ s.events, event.messageId ≠ envelope.messageId

/-! ### What is kept -/

theorem Stepped.events_kept (h : Stepped env s s') (hs : Healthy env s)
    {event : Crawler.OutboxEvent} (hevent : event ∈ s.events) :
    ∃ event' ∈ s'.events, event.SameEvent event' :=
  (h.crawler.telling hs.telling).2.kept event hevent

theorem Stepped.taken_subset (h : Stepped env s s') (hs : Healthy env s) : s.taken ⊆ s'.taken :=
  List.map_subset _ (h.crawler.conserved hs.telling.conserved).2.2.inbox_subset

theorem Stepped.inbox_subset (h : Stepped env s s') : s.control.inbox ⊆ s'.control.inbox :=
  h.control.invariant (P := fun t : WorkflowTables ↦ s.control.inbox ⊆ t.inbox)
    (fun hwrite hsubset ↦ List.Subset.trans hsubset hwrite.inbox_subset) (List.Subset.refl _)

theorem Stepped.consumed_subset (h : Stepped env s s') :
    s.control.consumed ⊆ s'.control.consumed :=
  List.map_subset _ h.inbox_subset

/-- The identifier of an event is the one in its envelope. -/
theorem messageId_of_event (hs : Healthy env s) {event : Crawler.OutboxEvent}
    (hevent : event ∈ s.events) : event.payload.messageId = event.messageId := by
  obtain ⟨past, hreports, -⟩ := hs.telling.faithful.reports event hevent
  exact hreports.spec.2.2.2.2.1

/-! ### Messages -/

theorem Stepped.messages (h : Stepped env s s') (hs : Healthy env s) (hcarried : Carried env s) :
    ∀ message ∈ s'.crawler.messages, ∃ event ∈ s'.events, message.Of event := by
  have hkept : ∀ message : Crawler.OutboxMessage, (∃ event ∈ s.events, message.Of event) →
      ∃ event ∈ s'.events, message.Of event := by
    rintro message ⟨event, hevent, hid, hpayload⟩
    obtain ⟨event', hevent', hsame⟩ := h.events_kept hs hevent
    obtain ⟨-, -, -, hpayload', hid'⟩ := hsame.spec
    exact ⟨event', hevent', hid.trans hid'.symm, hpayload.trans hpayload'.symm⟩
  have hold : ∀ message ∈ s.crawler.messages, ∃ event ∈ s'.events, message.Of event :=
    fun message hmessage ↦ hkept message (hcarried.messages message hmessage)
  cases h with
  | crawled sys htransition hworked hsubset hmessages =>
    intro message hmessage
    rcases hmessages message hmessage with hmessage | hnew
    · exact hold message hmessage
    · exact hkept message hnew
  | idle => exact hold
  | requested => exact hold
  | siteCloneConsumed => exact hold
  | moved => exact hold
  | commandAccepted => exact hold
  | cancellationAccepted => exact hold
  | eventAccepted => exact hold
  | drawn => exact hold

/-- A record is acknowledged when the crawler has its command. -/
theorem Stepped.acknowledged (h : Stepped env s s') (hs : Healthy env s)
    (hcarried : Carried env s) :
    ∀ record ∈ s'.acknowledged, record ∈ s'.records ∧ record.messageId ∈ s'.taken := by
  have hsubset := h.taken_subset hs
  have hold : ∀ record ∈ s.acknowledged, record ∈ s.records ∧ record.messageId ∈ s'.taken :=
    fun record hrecord ↦ (hcarried.acknowledged record hrecord).imp_right fun h ↦ hsubset h
  cases h with
  | moved records =>
    exact fun record hrecord ↦ (hold record hrecord).imp_left (List.mem_append_right records)
  | commandAccepted now receivedAt record envelope duplicate store hrecord hcommand haccepted =>
    have hid : record.messageId = envelope.messageId := congrArg Command.messageId hcommand
    intro other hother
    rcases List.mem_cons.1 hother with rfl | hother
    · refine ⟨hrecord, List.mem_map.2 ?_⟩
      rw [hid]
      obtain ⟨-, ⟨message, hmessage, hid', rfl⟩ | ⟨-, ⟨-, -, -, -, rfl⟩ | ⟨-, url, -, rfl⟩⟩⟩ :=
        Crawler.acceptCommand_cases haccepted
      · exact ⟨message, hmessage, hid'⟩
      · exact ⟨_, List.mem_append_right _ (List.mem_singleton_self _), rfl⟩
      · exact ⟨_, List.mem_append_right _ (List.mem_singleton_self _), rfl⟩
    · exact hold other hother
  | cancellationAccepted now receivedAt record envelope duplicate store hrecord hcommand
      haccepted =>
    have hid : record.messageId = envelope.messageId := congrArg Command.messageId hcommand
    intro other hother
    rcases List.mem_cons.1 hother with rfl | hother
    · refine ⟨hrecord, List.mem_map.2 ?_⟩
      rw [hid]
      obtain ⟨-, ⟨message, hmessage, hid', rfl⟩ | ⟨-, e, he, -, -, ⟨-, rfl⟩ |
        ⟨-, -, e', he', rfl⟩⟩⟩ := Crawler.acceptCancellation_cases haccepted
      · exact ⟨message, hmessage, hid'⟩
      · exact ⟨_, List.mem_append_right _ (List.mem_singleton_self _), rfl⟩
      · exact ⟨_, List.mem_append_right _ (List.mem_singleton_self _), rfl⟩
    · exact hold other hother
  | idle => exact hold
  | requested => exact hold
  | siteCloneConsumed => exact hold
  | crawled => exact hold
  | eventAccepted => exact hold
  | drawn => exact hold

/-- What a consumed event leaves in the inbox. -/
theorem inbox_of_consumed {envelope : Crawler.ScanEventEnvelope} {outcome : ConsumeOutcome}
    {t t' : WorkflowTables} (h : ScanEventConsumed env.control envelope t outcome t') :
    envelope.messageId ∈ t'.consumed ∧ ∀ record ∈ t'.inbox, record ∈ t.inbox ∨
      record.messageId = envelope.messageId ∧ record.payloadSha256 =
        env.control.sha256 (env.control.writeScanPayload envelope.payload) := by
  have hadded : ∀ t₁ : WorkflowTables, t₁.inbox = t.inbox →
      envelope.messageId ∈ (t₁.withInbox envelope.messageId
          (env.control.sha256 (env.control.writeScanPayload envelope.payload))).consumed ∧
        ∀ record ∈ (t₁.withInbox envelope.messageId
          (env.control.sha256 (env.control.writeScanPayload envelope.payload))).inbox,
          record ∈ t.inbox ∨ record.messageId = envelope.messageId ∧ record.payloadSha256 =
            env.control.sha256 (env.control.writeScanPayload envelope.payload) := by
    intro t₁ heq
    refine ⟨List.mem_map.2 ⟨_, List.mem_append_right _ (List.mem_singleton_self _), rfl⟩,
      fun record hrecord ↦ ?_⟩
    rcases List.mem_append.1 hrecord with hrecord | hrecord
    · exact .inl (heq ▸ hrecord)
    · rw [List.mem_singleton.1 hrecord]
      exact .inr ⟨rfl, rfl⟩
  cases h with
  | duplicate record hrecord hid =>
    exact ⟨List.mem_map.2 ⟨record, hrecord, hid⟩, fun _ h ↦ .inl h⟩
  | stale => exact hadded t rfl
  | applied scan next projection t₁ hscan hid howner hvalid hnew hprojection hnext hcoordinated =>
    exact hadded t₁ hcoordinated.inbox

theorem Stepped.accepted (h : Stepped env s s') (hs : Healthy env s) (hcarried : Carried env s) :
    ∀ message ∈ s'.accepted, message.messageId ∈ s'.control.consumed := by
  have hsubset := h.consumed_subset
  have hold : ∀ message ∈ s.accepted, message.messageId ∈ s'.control.consumed :=
    fun message hmessage ↦ hsubset (hcarried.accepted message hmessage)
  cases h with
  | eventAccepted message outcome t hmessage hconsumed =>
    intro other hother
    rcases List.mem_cons.1 hother with rfl | hother
    · obtain ⟨event, hevent, hid, hpayload⟩ := hcarried.messages other hmessage
      have hconsumedId := (inbox_of_consumed hconsumed).1
      rw [hpayload, messageId_of_event hs hevent, ← hid] at hconsumedId
      exact hconsumedId
    · exact hold other hother
  | idle => exact hold
  | requested => exact hold
  | siteCloneConsumed => exact hold
  | moved => exact hold
  | crawled => exact hold
  | commandAccepted => exact hold
  | cancellationAccepted => exact hold
  | drawn => exact hold

/-- The rows of the outbox with one identifier are one row. -/
theorem command_of_messageId (hs : Healthy env s) {command : Command}
    (hcommand : command ∈ s.control.commands) {row : OutboxRow} (hrow : row ∈ s.control.outbox)
    (hid : command.messageId = row.messageId) : row.command = command := by
  obtain ⟨other, hother, rfl⟩ := List.mem_map.1 hcommand
  rw [eq_of_key_eq hs.sound.numbered.outbox.1 hother hrow hid]

theorem Stepped.commands (h : Stepped env s s') (hs : Healthy env s) (hlinked : Linked s)
    (hcarried : Carried env s) :
    ∀ row ∈ s'.control.outbox, row.status = .delivered →
      row.command.aggregateType = "SITE_CLONE" ∨ row.messageId ∈ s'.taken := by
  have hsubset := h.taken_subset hs
  have hold : ∀ row ∈ s.control.outbox, row.status = .delivered →
      row.command.aggregateType = "SITE_CLONE" ∨ row.messageId ∈ s'.taken :=
    fun row hrow hstatus ↦ (hcarried.commands row hrow hstatus).imp_right fun h ↦ hsubset h
  have henqueued : ∀ t : WorkflowTables, Enqueued s.control t → ∀ row ∈ t.outbox,
      row.status = .delivered →
      row.command.aggregateType = "SITE_CLONE" ∨ row.messageId ∈ s'.taken := by
    rintro t ⟨rows, hrows, heq⟩ row hrow hstatus
    rw [heq] at hrow
    rcases List.mem_append.1 hrow with hrow | hrow
    · exact hold row hrow hstatus
    · exact absurd ((hrows row hrow).symm.trans hstatus) (by decide)
  cases h with
  | moved records sel set hmove hrecords hdelivered =>
    intro row' hrow' hstatus
    obtain ⟨row, hrow, rfl⟩ := mem_update.1 hrow'
    split_ifs at hstatus ⊢ with hsel
    · obtain ⟨record, hid, hrecord | ⟨hrecord, htype⟩⟩ := hdelivered row hsel hstatus
      · have htaken := hsubset (hcarried.acknowledged record hrecord).2
        rw [hid] at htaken
        right
        rw [OutboxRow.messageId, hmove.command row]
        exact htaken
      · left
        rw [hmove.command row,
          command_of_messageId hs (hlinked.records record hrecord) hrow hid]
        exact htype
    · exact hold row hrow hstatus
  | requested t hwrites => exact henqueued t hwrites.enqueued
  | siteCloneConsumed envelope outcome t henvelope hconsumed =>
    exact henqueued t hconsumed.writes.enqueued
  | eventAccepted message outcome t hmessage hconsumed =>
    exact henqueued t hconsumed.writes.enqueued
  | idle => exact hold
  | crawled => exact hold
  | commandAccepted => exact hold
  | cancellationAccepted => exact hold
  | drawn => exact hold

/-- An event is delivered when its publisher has an answer for it. -/
theorem Stepped.delivered (h : Stepped env s s') :
    ∀ event' ∈ s'.events, event'.status = .delivered →
      (∃ event ∈ s.events, event.messageId = event'.messageId ∧ event.status = .delivered) ∨
        ∃ message ∈ s.accepted, message.messageId = event'.messageId := by
  have hsame : ∀ event' ∈ s.events, event'.status = .delivered →
      (∃ event ∈ s.events, event.messageId = event'.messageId ∧ event.status = .delivered) ∨
        ∃ message ∈ s.accepted, message.messageId = event'.messageId :=
    fun event hevent hstatus ↦ .inl ⟨event, hevent, rfl, hstatus⟩
  cases h with
  | crawled sys htransition hworked => exact hworked.delivered
  | commandAccepted now receivedAt record envelope duplicate store hrecord hcommand haccepted =>
    obtain ⟨-, ⟨-, -, -, rfl⟩ | ⟨-, ⟨-, -, -, -, rfl⟩ | ⟨-, url, -, rfl⟩⟩⟩ :=
      Crawler.acceptCommand_cases haccepted
    · exact hsame
    · exact hsame
    · exact hsame
  | cancellationAccepted now receivedAt record envelope duplicate store hrecord hcommand
      haccepted =>
    obtain ⟨-, ⟨-, -, -, rfl⟩ | ⟨-, e, he, -, -, ⟨-, rfl⟩ | ⟨-, -, e', he', rfl⟩⟩⟩ :=
      Crawler.acceptCancellation_cases haccepted
    · exact hsame
    · exact hsame
    · have hworked : Crawler.Worked (fun id ↦ ∃ message ∈ s.accepted, message.messageId = id)
          (s.crawler.store.cancelled envelope.aggregateVersion now e) _ :=
        .announce _ e' envelope.correlationId now
      exact hworked.delivered
  | idle => exact hsame
  | requested => exact hsame
  | siteCloneConsumed => exact hsame
  | moved => exact hsame
  | eventAccepted => exact hsame
  | drawn => exact hsame

theorem Stepped.recorded (h : Stepped env s s') (hs : Healthy env s) (hcarried : Carried env s) :
    ∀ record ∈ s'.control.inbox, (∃ event ∈ s'.events, RecordOf env record event) ∨
      ∃ envelope ∈ s'.siteCloneEvents, envelope.messageId = record.messageId := by
  have hkept : ∀ record : InboxRecord, (∃ event ∈ s.events, RecordOf env record event) →
      ∃ event ∈ s'.events, RecordOf env record event := by
    rintro record ⟨event, hevent, hid, hhash⟩
    obtain ⟨event', hevent', hsame⟩ := h.events_kept hs hevent
    obtain ⟨-, -, -, hpayload', hid'⟩ := hsame.spec
    exact ⟨event', hevent', hid'.trans hid, hpayload' ▸ hhash⟩
  have hold : ∀ record ∈ s.control.inbox, (∃ event ∈ s'.events, RecordOf env record event) ∨
      ∃ envelope ∈ s.siteCloneEvents, envelope.messageId = record.messageId :=
    fun record hrecord ↦ (hcarried.recorded record hrecord).imp_left (hkept record)
  cases h with
  | requested t hwrites =>
    intro record hrecord
    rw [show t.inbox = s.control.inbox from hwrites.inbox_eq] at hrecord
    exact hold record hrecord
  | siteCloneConsumed envelope outcome t henvelope hconsumed =>
    have hadded : ∀ t₁ : WorkflowTables, t₁.inbox = s.control.inbox → ∀ hash,
        ∀ record ∈ (t₁.withInbox envelope.messageId hash).inbox,
        (∃ event ∈ s.events, RecordOf env record event) ∨
          ∃ envelope ∈ s.siteCloneEvents, envelope.messageId = record.messageId := by
      intro t₁ heq hash record hrecord
      rcases List.mem_append.1 hrecord with hrecord | hrecord
      · exact hold record (heq ▸ hrecord)
      · rw [List.mem_singleton.1 hrecord]
        exact .inr ⟨envelope, henvelope, rfl⟩
    cases hconsumed with
    | duplicate => exact hold
    | stale => exact hadded s.control rfl _
    | applied clone next =>
      exact hadded (s.control.saveSiteClone { clone with toSiteCloneRequest := next }) rfl _
  | eventAccepted message outcome t hmessage hconsumed =>
    intro record hrecord
    rcases (inbox_of_consumed hconsumed).2 record hrecord with hrecord | ⟨hid, hhash⟩
    · exact hold record hrecord
    · obtain ⟨event, hevent, -, hpayload⟩ := hcarried.messages message hmessage
      rw [hpayload] at hid hhash
      exact .inl ⟨event, hevent, (messageId_of_event hs hevent).symm.trans hid.symm, hhash⟩
  | drawn envelope =>
    exact fun record hrecord ↦ (hold record hrecord).imp_right
      fun ⟨other, hother, hid⟩ ↦ ⟨other, List.mem_cons_of_mem _ hother, hid⟩
  | idle => exact hold
  | moved => exact hold
  | crawled => exact hold
  | commandAccepted => exact hold
  | cancellationAccepted => exact hold

theorem Stepped.distinct (h : Stepped env s s') (hs : Healthy env s) (hcarried : Carried env s) :
    ∀ envelope ∈ s'.siteCloneEvents,
      envelope.messageId < s'.crawler.store.nextUuid ∧
        ∀ event ∈ s'.events, event.messageId ≠ envelope.messageId := by
  obtain ⟨hle, hfresh⟩ := h.crawler.fresh hs.telling.conserved.keyed
  have hold : ∀ envelope ∈ s.siteCloneEvents,
      envelope.messageId < s'.crawler.store.nextUuid ∧
        ∀ event ∈ s'.events, event.messageId ≠ envelope.messageId := by
    intro envelope henvelope
    obtain ⟨hlt, hne⟩ := hcarried.distinct envelope henvelope
    refine ⟨hlt.trans_le hle, fun event' hevent' ↦ ?_⟩
    rcases hfresh event' hevent' with ⟨event, hevent, hsame⟩ | hge
    · rw [hsame.spec.2.2.2.2]
      exact hne event hevent
    · exact (hlt.trans_le hge).ne'
  cases h with
  | drawn envelope =>
    intro other hother
    rcases List.mem_cons.1 hother with rfl | hother
    · exact ⟨Nat.lt_succ_self _, fun event hevent ↦ (hs.telling.faithful.fresh event hevent).ne⟩
    · exact hold other hother
  | idle => exact hold
  | requested => exact hold
  | siteCloneConsumed => exact hold
  | moved => exact hold
  | crawled => exact hold
  | commandAccepted => exact hold
  | cancellationAccepted => exact hold
  | eventAccepted => exact hold

/-! ### Every run -/

theorem Stepped.carried (h : Stepped env s s') (hs : Healthy env s) (hlinked : Linked s)
    (hcarried : Carried env s) : Carried env s' where
  messages := h.messages hs hcarried
  acknowledged := h.acknowledged hs hcarried
  accepted := h.accepted hs hcarried
  commands := h.commands hs hlinked hcarried
  events := by
    intro event' hevent' hstatus
    rcases h.delivered event' hevent' hstatus with
      ⟨event, hevent, hid, hdelivered⟩ | ⟨message, hmessage, hid⟩
    · exact h.consumed_subset (hid ▸ hcarried.events event hevent hdelivered)
    · exact h.consumed_subset (hid ▸ hcarried.accepted message hmessage)
  recorded := h.recorded hs hcarried
  distinct := h.distinct hs hcarried

theorem carried_empty : Carried env {} where
  messages := fun _ h ↦ absurd h List.not_mem_nil
  acknowledged := fun _ h ↦ absurd h List.not_mem_nil
  accepted := fun _ h ↦ absurd h List.not_mem_nil
  commands := fun _ h ↦ absurd h List.not_mem_nil
  events := fun _ h ↦ absurd h List.not_mem_nil
  recorded := fun _ h ↦ absurd h List.not_mem_nil
  distinct := fun _ h ↦ absurd h List.not_mem_nil

end WebLens.Scanning
