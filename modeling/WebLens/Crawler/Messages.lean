import WebLens.Crawler.Progress

/-!
# Messages of the crawler

What the work of the crawler does to the messages it exchanges: only commands enter its inbox, only
the publisher that completes an event makes it delivered, and a publisher is given events of the
outbox.
-/

set_option autoImplicit false
set_option relaxedAutoImplicit false

namespace WebLens.Crawler

open Lib Lib.Transaction

variable {env : Env} {s s' : Store} {named : Uuid → Prop}

/-! ### Stores -/

/-- The inbox stays, and only the named events become delivered. -/
structure Worked (named : Uuid → Prop) (s s' : Store) : Prop where
  inbox : s'.inboxMessages = s.inboxMessages
  delivered : ∀ event' ∈ s'.outboxEvents, event'.status = .delivered →
    (∃ event ∈ s.outboxEvents, event.messageId = event'.messageId ∧ event.status = .delivered) ∨
      named event'.messageId

theorem Worked.of_eq (hinbox : s'.inboxMessages = s.inboxMessages)
    (hevents : s'.outboxEvents = s.outboxEvents) : Worked named s s' :=
  ⟨hinbox, fun event hevent hstatus ↦ .inl ⟨event, hevents ▸ hevent, rfl, hstatus⟩⟩

theorem Worked.refl (s : Store) : Worked named s s :=
  .of_eq rfl rfl

theorem Worked.trans {s₁ s₂ s₃ : Store} (h : Worked named s₁ s₂) (h' : Worked named s₂ s₃) :
    Worked named s₁ s₃ := by
  refine ⟨h'.inbox.trans h.inbox, fun event hevent hstatus ↦ ?_⟩
  rcases h'.delivered event hevent hstatus with ⟨event₂, hevent₂, hid, hstatus₂⟩ | hnamed
  · rw [← hid]
    exact h.delivered event₂ hevent₂ hstatus₂
  · exact .inr hnamed

/-- An event that is announced waits. -/
theorem Worked.announce (s : Store) (e : Execution) (correlationId : Uuid) (now : Instant) :
    Worked named s (s.withProgressEvent e correlationId now) := by
  refine ⟨rfl, fun event hevent hstatus ↦ .inl ⟨event, ?_, rfl, hstatus⟩⟩
  rcases List.mem_append.1 hevent with hevent | hevent
  · exact hevent
  · rcases progressRows_cases e s.nextUuid correlationId now s.outboxEvents with
      ⟨-, hrows⟩ | ⟨hrows, -⟩ <;> rw [hrows] at hevent
    · rw [List.mem_singleton.1 hevent] at hstatus
      cases hstatus
    · cases hevent

theorem ProgressEvents.worked {now : Instant} {ids : List Uuid} (h : ProgressEvents now ids s s') :
    Worked named s s' := by
  induction h with
  | nil s => exact .refl s
  | cons e correlationId _ _ _ ih => exact (Worked.announce _ e correlationId now).trans ih

/-- A statement of the delivery makes only the named events delivered. -/
theorem Worked.move {sel : OutboxEvent → Bool} {set : OutboxEvent → OutboxEvent}
    (hinbox : s'.inboxMessages = s.inboxMessages)
    (hevents : s'.outboxEvents = Table.update sel set s.outboxEvents)
    (hset : ∀ event, (set event).messageId = event.messageId)
    (hdelivered : ∀ event, sel event = true → (set event).status = .delivered →
      named event.messageId) : Worked named s s' := by
  refine ⟨hinbox, fun event' hevent' hstatus ↦ ?_⟩
  rw [hevents] at hevent'
  obtain ⟨event, hevent, rfl⟩ := Table.mem_update.1 hevent'
  by_cases hsel : sel event = true
  · rw [if_pos hsel] at hstatus ⊢
    rw [hset]
    exact .inr (hdelivered event hsel hstatus)
  · rw [if_neg hsel] at hstatus ⊢
    exact .inl ⟨event, hevent, rfl, hstatus⟩

theorem retryStatus_ne_delivered (attempts : ℕ) : retryStatus attempts ≠ .delivered := by
  rcases retryStatus_cases attempts with h | h <;> rw [h] <;> decide

theorem Store.reclaimed_worked (clock : ReclaimClock) (locks : ReclaimLocks) (s : Store) :
    Worked named s (s.reclaimed clock locks) := by
  have hdeliveries : Worked named s (s.deliveriesReclaimed clock) :=
    .move rfl rfl (fun _ ↦ rfl) fun event _ hstatus ↦ absurd hstatus DeliveryStatus.noConfusion
  exact hdeliveries.trans (.of_eq rfl rfl)

/-! ### Identifiers -/

/-- Announced events are new. -/
theorem Announces.fresh {now : Instant} {es : List Execution} (h : Announces now es s s') :
    s.nextUuid ≤ s'.nextUuid ∧
      ∀ event ∈ s'.outboxEvents, event ∈ s.outboxEvents ∨ s.nextUuid ≤ event.messageId := by
  induction h with
  | nil s => exact ⟨le_rfl, fun _ hevent ↦ .inl hevent⟩
  | @cons e es s s' correlationId _ _ ih =>
    obtain ⟨hle, hevents⟩ := ih
    refine ⟨(Nat.le_succ _).trans hle, fun event hevent ↦ ?_⟩
    rcases hevents event hevent with hevent | hfresh
    · rcases List.mem_append.1 hevent with hevent | hevent
      · exact .inl hevent
      · rcases progressRows_cases e s.nextUuid correlationId now s.outboxEvents with
          ⟨-, hrows⟩ | ⟨hrows, -⟩ <;> rw [hrows] at hevent
        · rw [List.mem_singleton.1 hevent]
          exact .inr le_rfl
        · cases hevent
    · exact .inr ((Nat.le_succ _).trans hfresh)

/-- An event after a transition was there before, or it is new. -/
theorem Transition.fresh {sys sys' : System} (h : Transition env sys sys') (hsys : sys.Keyed) :
    sys.store.nextUuid ≤ sys'.store.nextUuid ∧ ∀ event' ∈ sys'.store.outboxEvents,
      (∃ event ∈ sys.store.outboxEvents, event.SameEvent event') ∨
        sys.store.nextUuid ≤ event'.messageId := by
  obtain ⟨now, es, s₁, hannounces, hmoves, hle, -⟩ := h.announced hsys
  obtain ⟨hle', hevents⟩ := hannounces.fresh
  refine ⟨hle.trans hle', fun event' hevent' ↦ ?_⟩
  rcases hevents event' hevent' with hevent | hfresh
  · exact .inl (exists_of_forall₂ hmoves.sameEvents hevent)
  · exact .inr (hle.trans hfresh)

/-- What is in the inbox stays there. -/
theorem Change.inbox_subset (h : Change env s s') : s.inboxMessages ⊆ s'.inboxMessages := by
  cases h with
  | worked hevolves hinbox =>
    obtain ⟨stale, hinbox, -⟩ := hinbox
    rw [hinbox]
    exact List.subset_append_left _ _
  | started now receivedAt envelope url hvalid hnew hs' =>
    rw [hs']
    exact List.subset_append_left _ _
  | cancelled now receivedAt envelope e hvalid he hscan hactive hexecutions hinbox =>
    rw [hinbox]
    exact List.subset_append_left _ _

/-! ### Steps -/

/-- Whether a step hands a command to the crawler. -/
def Action.isCommand : Action → Bool
  | .acceptCommand .. | .acceptCancellation .. => true
  | _ => false

/-- The events that a step completes. -/
def Action.completes : Action → Uuid → Prop
  | .completeEvent _ message, messageId => message.messageId = messageId
  | _, _ => False

/-- A step that is not a command leaves the inbox alone, and makes no event delivered but the one
that it completes. -/
theorem step_worked (env : Env) (sys : System) {action : Action} (h : action.isCommand = false) :
    Worked action.completes sys.store (sys.step env action).store := by
  have hcommit : ∀ {α : Type} {body : Tx α}, (∀ a s', Returns body sys.store a s' →
      Worked action.completes sys.store s') →
      Worked action.completes sys.store (commit body sys.store).2 :=
    fun hbody ↦ commit_snd_induction (.refl _) hbody
  have hwhen : ∀ {sys' : System} {condition : Prop} [Decidable condition],
      Worked action.completes sys.store sys'.store →
      Worked action.completes sys.store (if condition then sys' else sys).store := by
    intro sys' condition _ hworked
    split_ifs
    · exact hworked
    · exact .refl _
  cases action with
  | acceptCommand => cases h
  | acceptCancellation => cases h
  | claimPage now leaseUntil hostDelay locks =>
    rw [System.step]
    rcases commit_cases (dispatchClaim env now leaseUntil hostDelay locks) sys.store with
      ⟨result, s', hcommit, h⟩ | ⟨e, hcommit⟩
    · rw [hcommit]
      obtain ⟨rfl, rfl⟩ | ⟨e, host, page, correlationId, e', -, rfl, -, -, rfl⟩ :=
        dispatchClaim_cases h
      · exact .of_eq rfl rfl
      · refine Worked.trans ?_ (.announce _ e' correlationId now)
        exact .of_eq rfl rfl
    · rw [hcommit]
      exact .refl _
  | extendPageLease leaseUntil lease =>
    refine hwhen (hcommit fun u s' h ↦ ?_)
    obtain ⟨-, -, rfl⟩ := extendPageLease_cases h
    exact .of_eq rfl rfl
  | commitPageResult now lease result =>
    refine hwhen (hcommit fun u s' h ↦ ?_)
    obtain ⟨page, -, -, -, ⟨-, e, -, rfl⟩ | ⟨-, added, payload, outboxId, e, -, -, -, -, -, rfl⟩⟩ :=
      commitPageResult_cases h
    · refine Worked.trans ?_ (.announce _ e lease.correlationId now)
      exact .of_eq rfl rfl
    · refine Worked.trans ?_ (.announce _ e lease.correlationId now)
      exact .of_eq rfl rfl
  | claimAnalytics now leaseUntil locked workerId limit =>
    rw [System.step]
    rcases commit_cases (claimAnalytics now leaseUntil locked workerId limit) sys.store with
      ⟨batches, s', hcommit, h⟩ | ⟨e, hcommit⟩
    · rw [hcommit]
      obtain ⟨ids, rfl, -, -⟩ := claimAnalytics_cases h
      exact .of_eq rfl rfl
    · rw [hcommit]
      exact .refl _
  | completeAnalytics now batch =>
    refine hwhen (hcommit fun u s' h ↦ ?_)
    obtain ⟨-, page, -, terminalStatus, e, correlationId, -, -, -, -, -, rfl⟩ :=
      completeAnalytics_cases h
    refine Worked.trans ?_ (.announce _ e correlationId now)
    exact .of_eq rfl rfl
  | retryAnalytics now batch =>
    refine hwhen (hcommit fun u s' h ↦ ?_)
    rw [retryAnalytics_cases h]
    exact .of_eq rfl rfl
  | claimEvents now leaseUntil locked workerId limit =>
    rw [System.step]
    rcases commit_cases (claimEvents now leaseUntil locked workerId limit) sys.store with
      ⟨messages, s', hcommit, h⟩ | ⟨e, hcommit⟩
    · rw [hcommit]
      simp only [claimEvents, returns_bind, returns_get, returns_updateOutboxEvents, returns_pure,
        and_assoc, exists_and_left, exists_eq_left] at h
      obtain ⟨-, rfl⟩ := h
      exact .move rfl rfl (fun _ ↦ rfl) fun event _ hstatus ↦
        absurd hstatus DeliveryStatus.noConfusion
    · rw [hcommit]
      exact .refl _
  | completeEvent now message =>
    refine hwhen (hcommit fun u s' h ↦ ?_)
    simp only [completeEvent, returns_bind, returns_updateOutboxEvents, returns_require, and_assoc,
      exists_and_left, exists_eq_left] at h
    rw [h.2]
    refine .move rfl rfl (fun _ ↦ rfl) fun event hsel _ ↦ ?_
    rw [Bool.and_assoc, Bool.and_eq_true] at hsel
    exact (OutboxEvent.isClaimedBy_iff.1 hsel.1).1.symm
  | retryEvent now message =>
    refine hwhen (hcommit fun u s' h ↦ ?_)
    simp only [retryEvent, returns_bind, returns_updateOutboxEvents, returns_require, and_assoc,
      exists_and_left, exists_eq_left] at h
    rw [h.2]
    exact .move rfl rfl (fun _ ↦ rfl) fun event _ hstatus ↦
      absurd hstatus (retryStatus_ne_delivered event.deliveryAttempts)
  | reclaimExpired clock locks =>
    refine hcommit fun u s' h ↦ ?_
    exact (sys.store.reclaimed_worked clock locks).trans (reclaimExpired_cases h).worked

/-- The message carries the event. -/
def OutboxMessage.Of (message : OutboxMessage) (event : OutboxEvent) : Prop :=
  message.messageId = event.messageId ∧ message.payload = event.payload

/-- A step keeps what the publishers were given, and gives them events of the outbox. -/
theorem step_messages (env : Env) (sys : System) (action : Action) :
    sys.messages ⊆ (sys.step env action).messages ∧
      ∀ message ∈ (sys.step env action).messages, message ∈ sys.messages ∨
        ∃ event ∈ sys.store.outboxEvents, message.Of event := by
  have hsame : ∀ {sys' : System}, sys'.messages = sys.messages → sys.messages ⊆ sys'.messages ∧
      ∀ message ∈ sys'.messages, message ∈ sys.messages ∨
        ∃ event ∈ sys.store.outboxEvents, message.Of event := by
    intro sys' heq
    rw [heq]
    exact ⟨List.Subset.refl _, fun _ hmem ↦ .inl hmem⟩
  have hwhen : ∀ {store : Store} {condition : Prop} [Decidable condition],
      (if condition then { sys with store := store } else sys).messages = sys.messages := by
    intro store condition _
    split_ifs <;> rfl
  cases action with
  | claimPage now leaseUntil hostDelay locks =>
    refine hsame ?_
    rw [System.step]
    split <;> rfl
  | claimAnalytics now leaseUntil locked workerId limit =>
    refine hsame ?_
    rw [System.step]
    split <;> rfl
  | claimEvents now leaseUntil locked workerId limit =>
    rw [System.step]
    rcases commit_cases (claimEvents now leaseUntil locked workerId limit) sys.store with
      ⟨messages, s', hcommit, h⟩ | ⟨e, hcommit⟩
    · rw [hcommit]
      refine ⟨List.subset_append_right _ _, fun message hmessage ↦ ?_⟩
      rcases List.mem_append.1 (show message ∈ messages ++ sys.messages from hmessage) with
        hnew | hold
      · simp only [claimEvents, returns_bind, returns_get, returns_updateOutboxEvents,
          returns_pure, and_assoc, exists_and_left, exists_eq_left] at h
        obtain ⟨rfl, rfl⟩ := h
        obtain ⟨event', hevent', rfl⟩ := List.mem_map.1 hnew
        obtain ⟨event, hevent, rfl⟩ := Table.mem_update.1 (List.mem_of_mem_filter hevent')
        refine .inr ⟨event, hevent, ?_⟩
        split_ifs
        · exact ⟨rfl, rfl⟩
        · exact ⟨rfl, rfl⟩
      · exact .inl hold
    · rw [hcommit]
      exact hsame rfl
  | acceptCommand => exact hsame rfl
  | acceptCancellation => exact hsame rfl
  | extendPageLease => exact hsame hwhen
  | commitPageResult => exact hsame hwhen
  | completeAnalytics => exact hsame hwhen
  | retryAnalytics => exact hsame hwhen
  | completeEvent => exact hsame hwhen
  | retryEvent => exact hsame hwhen
  | reclaimExpired => exact hsame rfl

end WebLens.Crawler
