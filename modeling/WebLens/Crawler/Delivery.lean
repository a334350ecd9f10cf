import WebLens.Crawler.Progress

/-!
# Ordered delivery

The events of a scan are delivered one after the other. `Ordered` says that no two events of an
aggregate are claimed and that all earlier events of a claimed one are delivered. A claim keeps it
because it takes only events that nothing blocks, the end of a delivery because it touches claimed
events only, and an append because the versions of an aggregate grow. A delivered row never changes
again, and only the recorded owner of a claim may end it.
-/

set_option autoImplicit false
set_option relaxedAutoImplicit false

namespace WebLens.Crawler

open Lib Lib.Transaction

variable {env : Env} {s s' : Store} {events events' : List OutboxEvent}

/-- The events are about the same aggregate. -/
def OutboxEvent.SameAggregate (event other : OutboxEvent) : Prop :=
  other.aggregateType = event.aggregateType ∧ other.aggregateId = event.aggregateId

/-- At most one event of an aggregate is claimed, and the earlier ones are delivered. -/
structure Ordered (events : List OutboxEvent) : Prop where
  single : ∀ event ∈ events, event.status = .claimed → ∀ other ∈ events,
    event.SameAggregate other → other.status = .claimed → other = event
  earlier : ∀ event ∈ events, event.status = .claimed → ∀ other ∈ events,
    event.SameAggregate other → other.aggregateVersion < event.aggregateVersion →
      other.status = .delivered

/-- Delivered rows stay as they are. -/
def Settled (events events' : List OutboxEvent) : Prop :=
  ∀ event ∈ events, event.status = .delivered → event ∈ events'

/-! ### Statements of the delivery -/

/-- What it takes for an event to be due: nothing of its aggregate is claimed or waits before it. -/
theorem OutboxEvent.isDue_iff {now : Instant} {event : OutboxEvent} :
    event.isDue now events = true ↔ (event.status = .pending ∨ event.status = .dead) ∧
      event.availableAt ≤ now ∧ ∀ other ∈ events, event.SameAggregate other →
        other.status ≠ .claimed ∧ (other.status = .pending ∨ other.status = .dead →
          event.aggregateVersion ≤ other.aggregateVersion) := by
  simp only [OutboxEvent.isDue, Bool.and_eq_true, Bool.or_eq_true, decide_eq_true_eq,
    List.all_eq_true, Bool.not_eq_true', Bool.and_eq_false_iff, Bool.or_eq_false_iff,
    decide_eq_false_iff_not, and_assoc, OutboxEvent.SameAggregate]
  refine and_congr_right fun _ ↦ and_congr_right fun _ ↦ forall₂_congr fun other _ ↦ ?_
  constructor
  · rintro h ⟨htype, hid⟩
    rcases h with (h | h) | ⟨hclaimed, h⟩
    · exact absurd htype h
    · exact absurd hid h
    · refine ⟨hclaimed, fun hwaits ↦ ?_⟩
      rcases h with ⟨hpending, hdead⟩ | h
      · exact absurd hwaits (not_or.2 ⟨hpending, hdead⟩)
      · exact not_lt.1 h
  · intro h
    by_cases hsame : other.aggregateType = event.aggregateType ∧
        other.aggregateId = event.aggregateId
    · obtain ⟨hclaimed, hversion⟩ := h hsame
      refine .inr ⟨hclaimed, ?_⟩
      by_cases hwaits : other.status = .pending ∨ other.status = .dead
      · exact .inr (not_lt.2 (hversion hwaits))
      · exact .inl (not_or.1 hwaits)
    · exact .inl (not_and_or.1 hsame)

/-- The events that a claim selects are due themselves. -/
theorem isDue_of_selected (hids : (events.map OutboxEvent.messageId).Nodup)
    {sel : OutboxEvent → Bool} {now : Instant}
    (hdue : ∀ event ∈ events, sel event = true → ∃ due ∈ events,
      due.messageId = event.messageId ∧ due.isDue now events = true) :
    ∀ event ∈ events, sel event = true → event.isDue now events = true := by
  intro event hevent hsel
  obtain ⟨due, hmem, hid, hdue⟩ := hdue event hevent hsel
  rwa [Table.eq_of_key_eq hids hmem hevent hid] at hdue

/-- A statement of the delivery selects no delivered event. -/
theorem EventMove.not_delivered (hids : (events.map OutboxEvent.messageId).Nodup)
    {sel : OutboxEvent → Bool} {set : OutboxEvent → OutboxEvent} (h : EventMove events sel set)
    {event : OutboxEvent} (hevent : event ∈ events) (hsel : sel event = true) :
    event.status ≠ .delivered := by
  intro hstatus
  cases h with
  | claimed now hdue _ =>
    have hwaits := (OutboxEvent.isDue_iff.1 (isDue_of_selected hids hdue event hevent hsel)).1
    rw [hstatus] at hwaits
    rcases hwaits with h | h <;> cases h
  | delivered hclaimed _ | returned hclaimed _ =>
    have := hstatus.symm.trans (hclaimed event hsel)
    cases this

theorem Moves.settled (h : Moves events events')
    (hids : (events.map OutboxEvent.messageId).Nodup) : Settled events events' := by
  obtain ⟨sel, set, -, hmove, rfl⟩ := h
  intro event hevent hstatus
  refine Table.mem_update_of_not hevent ?_
  by_contra hsel
  exact hmove.not_delivered hids hevent (Bool.not_eq_false _ ▸ hsel) hstatus

/-- A claim keeps the order. -/
theorem Ordered.claim (h : Ordered events)
    (hversions : (events.map OutboxEvent.logicalKey).Nodup) {sel : OutboxEvent → Bool}
    {set : OutboxEvent → OutboxEvent} (hset : ∀ event : OutboxEvent, event.SameEvent (set event))
    {now : Instant} (hdue : ∀ event ∈ events, sel event = true → event.isDue now events = true) :
    Ordered (Table.update sel set events) := by
  have hsame : ∀ event other, (if sel event = true then set event else event).SameAggregate
      (if sel other = true then set other else other) → event.SameAggregate other := by
    rintro event other ⟨htype, hid⟩
    obtain ⟨htype₁, hid₁, -⟩ := (hset event).spec
    obtain ⟨htype₂, hid₂, -⟩ := (hset other).spec
    constructor
    · split_ifs at htype <;> simp_all
    · split_ifs at hid <;> simp_all
  constructor
  · intro event' hevent' hclaimed other' hother' hagg hclaimed'
    obtain ⟨event, hevent, rfl⟩ := Table.mem_update.1 hevent'
    obtain ⟨other, hother, rfl⟩ := Table.mem_update.1 hother'
    have hagg := hsame event other hagg
    by_cases hsel : sel event = true
    · obtain ⟨hwaits, -, hfirst⟩ := OutboxEvent.isDue_iff.1 (hdue event hevent hsel)
      by_cases hsel' : sel other = true
      · -- two due events of one aggregate have the same version
        obtain ⟨hwaits', -, hfirst'⟩ := OutboxEvent.isDue_iff.1 (hdue other hother hsel')
        have hle := (hfirst other hother hagg).2 hwaits'
        have hge := (hfirst' event hevent ⟨hagg.1.symm, hagg.2.symm⟩).2 hwaits
        rw [Table.eq_of_key_eq hversions hother hevent (Prod.ext hagg.2 (le_antisymm hge hle))]
      · rw [if_neg hsel'] at hclaimed'
        exact absurd hclaimed' (hfirst other hother hagg).1
    · rw [if_neg hsel] at hclaimed
      by_cases hsel' : sel other = true
      · obtain ⟨-, -, hfirst'⟩ := OutboxEvent.isDue_iff.1 (hdue other hother hsel')
        exact absurd hclaimed (hfirst' event hevent ⟨hagg.1.symm, hagg.2.symm⟩).1
      · rw [if_neg hsel'] at hclaimed' ⊢
        rw [if_neg hsel]
        exact h.single event hevent hclaimed other hother hagg hclaimed'
  · intro event' hevent' hclaimed other' hother' hagg hlt
    obtain ⟨event, hevent, rfl⟩ := Table.mem_update.1 hevent'
    obtain ⟨other, hother, rfl⟩ := Table.mem_update.1 hother'
    have hagg := hsame event other hagg
    have hlt : other.aggregateVersion < event.aggregateVersion := by
      obtain ⟨-, -, hversion₁, -⟩ := (hset event).spec
      obtain ⟨-, -, hversion₂, -⟩ := (hset other).spec
      split_ifs at hlt <;> simp_all
    have hdelivered : other.status = .delivered := by
      by_cases hsel : sel event = true
      · obtain ⟨-, -, hfirst⟩ := OutboxEvent.isDue_iff.1 (hdue event hevent hsel)
        obtain ⟨hnot, hversion⟩ := hfirst other hother hagg
        cases hstatus : other.status with
        | pending => exact absurd (hversion (.inl hstatus)) (not_le.2 hlt)
        | dead => exact absurd (hversion (.inr hstatus)) (not_le.2 hlt)
        | claimed => exact absurd hstatus hnot
        | delivered => rfl
      · rw [if_neg hsel] at hclaimed
        exact h.earlier event hevent hclaimed other hother hagg hlt
    have hsel' : sel other ≠ true := by
      intro hsel'
      obtain ⟨hwaits, -⟩ := OutboxEvent.isDue_iff.1 (hdue other hother hsel')
      rw [hdelivered] at hwaits
      rcases hwaits with h | h <;> cases h
    rw [if_neg hsel']
    exact hdelivered

/-- Ending deliveries keeps the order. -/
theorem Ordered.release (h : Ordered events) {sel : OutboxEvent → Bool}
    {set : OutboxEvent → OutboxEvent} (hset : ∀ event : OutboxEvent, event.SameEvent (set event))
    (hsel : ∀ event, sel event = true → event.status = .claimed)
    (hreleased : ∀ event, (set event).status ≠ .claimed) :
    Ordered (Table.update sel set events) := by
  have hkept : ∀ event' ∈ Table.update sel set events, event'.status = .claimed →
      event' ∈ events := by
    intro event' hevent' hclaimed
    obtain ⟨event, hevent, rfl⟩ := Table.mem_update.1 hevent'
    by_cases hsel' : sel event = true
    · rw [if_pos hsel'] at hclaimed
      exact absurd hclaimed (hreleased event)
    · rw [if_neg hsel']
      exact hevent
  constructor
  · intro event hevent hclaimed other hother hagg hclaimed'
    exact h.single event (hkept event hevent hclaimed) hclaimed other
      (hkept other hother hclaimed') hagg hclaimed'
  · intro event hevent hclaimed other' hother' hagg hlt
    obtain ⟨other, hother, rfl⟩ := Table.mem_update.1 hother'
    have hmem := hkept event hevent hclaimed
    by_cases hsel' : sel other = true
    · -- a released event would have been claimed beside a later one
      rw [if_pos hsel'] at hagg hlt
      obtain ⟨htype, hid, hversion, -⟩ := (hset other).spec
      have hdelivered := h.earlier event hmem hclaimed other hother
        ⟨htype.symm.trans hagg.1, hid.symm.trans hagg.2⟩ (hversion ▸ hlt)
      have := hdelivered.symm.trans (hsel other hsel')
      cases this
    · rw [if_neg hsel'] at hagg hlt ⊢
      exact h.earlier event hmem hclaimed other hother hagg hlt

/-- Every statement of the delivery keeps the order. -/
theorem Ordered.move (h : Ordered events) (hids : (events.map OutboxEvent.messageId).Nodup)
    (hversions : (events.map OutboxEvent.logicalKey).Nodup) (hmoves : Moves events events') :
    Ordered events' := by
  obtain ⟨sel, set, hset, hmove, rfl⟩ := hmoves
  cases hmove with
  | claimed now hdue _ => exact h.claim hversions hset (isDue_of_selected hids hdue)
  | delivered hsel hstatus => exact h.release hset hsel fun event ↦ by simp [hstatus event]
  | returned hsel hstatus =>
    refine h.release hset hsel fun event ↦ ?_
    rcases hstatus event with heq | heq <;> simp [heq]

/-! ### Appends -/

/-- An appended event waits, and has a higher version than the other events of its scan. -/
theorem progressRows_version (h : Faithful s) (hscans : (s.executions.map Execution.scanId).Nodup)
    {e : Execution} (he : e ∈ s.executions) {messageId correlationId : Uuid} {now : Instant}
    {row : OutboxEvent} (hrow : row ∈ progressRows e
      (e.progressEnvelope messageId correlationId now) now s.outboxEvents) :
    row.status = .pending ∧ ∀ event ∈ s.outboxEvents, row.SameAggregate event →
      event.aggregateVersion < row.aggregateVersion := by
  rcases progressRows_cases e messageId correlationId now s.outboxEvents with
    ⟨hnew, hrows⟩ | ⟨hrows, -⟩ <;> rw [hrows] at hrow
  · rw [List.mem_singleton.1 hrow]
    refine ⟨rfl, fun event hevent hagg ↦ ?_⟩
    obtain ⟨past, hreports, -, e', he', hadvances⟩ := h.reports event hevent
    obtain ⟨-, hid, hversion, -⟩ := hreports.spec
    obtain ⟨messageId', correlationId', now', _, _, _, _, _, rfl⟩ := hreports
    have hscan : e'.scanId = e.scanId := by
      rw [(Execution.of_fixed_eq hadvances.fixed).2.1, ← hid]
      exact hagg.2
    obtain rfl := Table.eq_of_key_eq hscans he' he hscan
    have hne := fun heq ↦ hnew _ hevent ⟨rfl, hagg.2, heq, rfl⟩
    exact lt_of_le_of_ne hadvances.version fun heq ↦ hne heq
  · cases hrow

/-- An append keeps the order. -/
theorem Ordered.append {row : OutboxEvent} (h : Ordered events) (hstatus : row.status = .pending)
    (hversion : ∀ event ∈ events, row.SameAggregate event →
      event.aggregateVersion < row.aggregateVersion) : Ordered (events ++ [row]) := by
  have hkept : ∀ event ∈ events ++ [row], event.status = .claimed → event ∈ events := by
    intro event hevent hclaimed
    rcases List.mem_append.1 hevent with hevent | hevent
    · exact hevent
    · rw [List.mem_singleton.1 hevent, hstatus] at hclaimed
      cases hclaimed
  constructor
  · intro event hevent hclaimed other hother hagg hclaimed'
    exact h.single event (hkept event hevent hclaimed) hclaimed other
      (hkept other hother hclaimed') hagg hclaimed'
  · intro event hevent hclaimed other hother hagg hlt
    have hmem := hkept event hevent hclaimed
    rcases List.mem_append.1 hother with hother | hother
    · exact h.earlier event hmem hclaimed other hother hagg hlt
    · rw [List.mem_singleton.1 hother] at hagg hlt
      exact absurd (hversion event hmem ⟨hagg.1.symm, hagg.2.symm⟩) (not_lt.2 hlt.le)

/-- Announcements keep the order. -/
theorem Announces.ordered {now : Instant} {es : List Execution} (h : Announces now es s s')
    (hfaithful : Faithful s) (hscans : (s.executions.map Execution.scanId).Nodup)
    (hreportable : AllReportable s) (hordered : Ordered s.outboxEvents) :
    Ordered s'.outboxEvents := by
  induction h with
  | nil s => exact hordered
  | @cons e es s s' correlationId he hrest ih =>
    refine ih (hfaithful.announce he (hreportable e he) correlationId now) hscans hreportable ?_
    have hversion : ∀ row ∈ progressRows e (e.progressEnvelope s.nextUuid correlationId now) now
        s.outboxEvents, row.status = .pending ∧ ∀ event ∈ s.outboxEvents, row.SameAggregate event →
          event.aggregateVersion < row.aggregateVersion :=
      fun row hrow ↦ progressRows_version hfaithful hscans he hrow
    rcases progressRows_cases e s.nextUuid correlationId now s.outboxEvents with
      ⟨-, hrows⟩ | ⟨hrows, -⟩ <;> rw [Store.withProgressEvent, hrows]
    · obtain ⟨hstatus, hlt⟩ := hversion _ (hrows ▸ List.mem_singleton_self _)
      exact hordered.append hstatus hlt
    · rw [List.append_nil]
      exact hordered

/-! ### Every run -/

/-- A crawler that tells its executions in order. -/
structure System.Ordered (sys : System) : Prop where
  telling : sys.Telling
  ordered : Crawler.Ordered sys.store.outboxEvents

theorem Transition.ordered {sys sys' : System} (h : Transition env sys sys') (hsys : sys.Ordered) :
    sys'.Ordered ∧ Settled sys.store.outboxEvents sys'.store.outboxEvents := by
  obtain ⟨htelling, hordered⟩ := hsys
  obtain ⟨htelling', hprogressed⟩ := h.telling htelling
  obtain ⟨now, es, s₁, hannounces, hmoves, hle, -⟩ := h.announced htelling.conserved.keyed
  have hfaithful := htelling.faithful
  have hexecutions := hannounces.executions
  have hfaithful₁ : Faithful s₁ :=
    hfaithful.congr hmoves.sameEvents hle (hexecutions ▸ hprogressed.executions)
  refine ⟨⟨htelling', hannounces.ordered hfaithful₁
    (hexecutions ▸ htelling'.conserved.keyed.store.scanIds)
    (fun e he ↦ htelling'.reportable e (hexecutions ▸ he))
    (hordered.move hfaithful.messageIds hfaithful.versions hmoves)⟩, fun event hevent hstatus ↦ ?_⟩
  exact hannounces.subset (hmoves.settled hfaithful.messageIds event hevent hstatus)

theorem ordered_after (env : Env) (actions : List Action) : (System.after env actions).Ordered :=
  after_invariant ⟨telling_after env [], by constructor <;> simp⟩ (fun h hsys ↦ (h.ordered hsys).1)
    actions

/-- What was delivered stays delivered. -/
theorem settled_after (env : Env) (actions more : List Action) :
    Settled (System.after env actions).store.outboxEvents
      (System.after env (actions ++ more)).store.outboxEvents := by
  rw [System.after, System.after, run_append]
  exact @run_relation System Action (System.step env) System.Ordered
    (fun sys sys' ↦ Settled sys.store.outboxEvents sys'.store.outboxEvents)
    (fun sys action h ↦ ((step_transition env sys action).ordered h).1)
    (fun sys action h ↦ ((step_transition env sys action).ordered h).2)
    (fun _ _ hevent _ ↦ hevent) (fun h₁ h₂ event hevent hstatus ↦
      h₂ event (h₁ event hevent hstatus) hstatus) _ (ordered_after env actions) more

/-! ### Lost claims -/

/-- A publisher that is not the recorded owner cannot complete its event. -/
theorem completeEvent_stale {message : OutboxMessage} (now : Instant)
    (h : ∀ event ∈ s.outboxEvents, event.messageId = message.messageId →
      event.leaseOwner ≠ some message.leaseOwner) : Fails (completeEvent now message) s .staleLease := by
  refine (returns_updateOutboxEvents.2 ⟨rfl, rfl⟩).fails_bind (fails_require fun hone ↦ ?_)
  obtain ⟨event, hevent, hsel⟩ := List.countP_pos_iff.1 (hone ▸ Nat.zero_lt_one)
  rw [Bool.and_assoc, Bool.and_eq_true] at hsel
  obtain ⟨hid, -, howner⟩ := OutboxEvent.isClaimedBy_iff.1 hsel.1
  exact h event hevent hid howner

/-- A publisher that is not the recorded owner cannot return its event. -/
theorem retryEvent_stale {message : OutboxMessage} (now : Instant)
    (h : ∀ event ∈ s.outboxEvents, event.messageId = message.messageId →
      event.leaseOwner ≠ some message.leaseOwner) : Fails (retryEvent now message) s .staleLease := by
  refine (returns_updateOutboxEvents.2 ⟨rfl, rfl⟩).fails_bind (fails_require fun hone ↦ ?_)
  obtain ⟨event, hevent, hsel⟩ := List.countP_pos_iff.1 (hone ▸ Nat.zero_lt_one)
  obtain ⟨hid, -, howner⟩ := OutboxEvent.isClaimedBy_iff.1 hsel
  exact h event hevent hid howner

/-- Ordered delivery. At most one event of an aggregate is claimed, and then all its events with a
smaller version are delivered. A delivered event keeps its row for ever and no claim returns it.
A publisher that is not the recorded owner of its event can neither complete nor return it. -/
theorem events_in_order (env : Env) (actions : List Action) :
    (∀ event ∈ (System.after env actions).store.outboxEvents, event.status = .claimed →
      ∀ other ∈ (System.after env actions).store.outboxEvents, event.SameAggregate other →
        (other.status = .claimed → other = event) ∧
        (other.aggregateVersion < event.aggregateVersion → other.status = .delivered)) ∧
    (∀ event ∈ (System.after env actions).store.outboxEvents, event.status = .delivered →
      ∀ more, (∀ event' ∈ (System.after env (actions ++ more)).store.outboxEvents,
          event'.messageId = event.messageId → event' = event) ∧
        event ∈ (System.after env (actions ++ more)).store.outboxEvents ∧
        ∀ now leaseUntil locked workerId limit messages store,
          commit (claimEvents now leaseUntil locked workerId limit)
            (System.after env (actions ++ more)).store = (.ok messages, store) →
          ∀ message ∈ messages, message.messageId ≠ event.messageId) ∧
    ∀ message : OutboxMessage, (∀ event ∈ (System.after env actions).store.outboxEvents,
        event.messageId = message.messageId → event.leaseOwner ≠ some message.leaseOwner) →
      ∀ now, commit (completeEvent now message) (System.after env actions).store =
          (.error .staleLease, (System.after env actions).store) ∧
        commit (retryEvent now message) (System.after env actions).store =
          (.error .staleLease, (System.after env actions).store) := by
  refine ⟨fun event hevent hclaimed other hother hagg ↦ ?_, fun event hevent hstatus more ↦ ?_,
    fun message h now ↦ ⟨commit_of_fails (completeEvent_stale now h),
      commit_of_fails (retryEvent_stale now h)⟩⟩
  · have hordered := (ordered_after env actions).ordered
    exact ⟨hordered.single event hevent hclaimed other hother hagg,
      hordered.earlier event hevent hclaimed other hother hagg⟩
  · have hids := (ordered_after env (actions ++ more)).telling.faithful.messageIds
    have hmem := settled_after env actions more event hevent hstatus
    refine ⟨fun event' hevent' hid ↦ Table.eq_of_key_eq hids hevent' hmem hid, hmem, ?_⟩
    intro now leaseUntil locked workerId limit messages store hcommit message hmessage hid
    obtain ⟨-, -, -, -, -, hdue⟩ := claimEvents_cases (commit_ok_iff.1 hcommit)
    obtain ⟨due, hduemem, hdueid, hdue⟩ := hdue message hmessage
    rw [Table.eq_of_key_eq hids hduemem hmem (hdueid.trans hid)] at hdue
    have hwaits := (OutboxEvent.isDue_iff.1 hdue).1
    rw [hstatus] at hwaits
    rcases hwaits with h | h <;> cases h

/-- The sample scan: once its first event is claimed by publisher 7, publisher 8 cannot complete
it. -/
theorem events_in_order_sample :
    commit (completeEvent 4 ((progressRow ((newExecution Env.sample 1 (.sample 5) [] 1
        ).progressEnvelope 4 103 2) 2).message 8)) (System.after Env.sample [.acceptCommand 1 1 (.sample 5),
          .claimPage 2 100 1 {}, .claimEvents 3 100 [] 7 4]).store =
      (.error .staleLease, (System.after Env.sample [.acceptCommand 1 1 (.sample 5),
        .claimPage 2 100 1 {}, .claimEvents 3 100 [] 7 4]).store) :=
  ((events_in_order Env.sample [.acceptCommand 1 1 (.sample 5), .claimPage 2 100 1 {},
    .claimEvents 3 100 [] 7 4]).2.2 _ (by decide +kernel) 4).1

end WebLens.Crawler
