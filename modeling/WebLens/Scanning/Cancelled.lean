import WebLens.Scanning.Taken

/-!
# Cancellations

A cancellation that was delivered has taken effect: its execution is being cancelled, or it had
ended before. And nothing else cancels: an execution is cancelled, and a scan ends as cancelled,
only when its user asked for it.
-/

set_option autoImplicit false
set_option relaxedAutoImplicit false

namespace WebLens.Scanning

open Lib Lib.Table Lib.Transaction ControlPlane
open Capture (Uuid)
open Crawler (Instant)

variable {env : Env} {s s' : State}

/-! ### Effects -/

/-- The cancellation of the scan is applied, or its execution has ended. -/
def Settled (store : Crawler.Store) (scanId : Uuid) : Prop :=
  ∃ e ∈ store.executions, e.scanId = scanId ∧ (e.IsCancelled ∨ e.status.isTerminal = true)

/-- Only a cancellation moves the version of a command, and every cancellation that was taken is
settled. -/
structure Obeyed (s : State) : Prop where
  versions : ∀ e ∈ s.crawler.store.executions, 0 < e.commandVersion → e.IsCancelled
  settled : ∀ message ∈ s.crawler.store.inboxMessages,
    message.messageType = .scanCancelRequested → Settled s.crawler.store message.aggregateId

theorem commandVersion_of_steps {e e' : Crawler.Execution} (h : Crawler.ExecutionSteps e e') :
    e'.commandVersion = e.commandVersion := by
  induction h with
  | refl => rfl
  | tail _ hstep ih =>
    rw [← ih]
    cases hstep with
    | finished now hactive hfinished =>
      rw [Crawler.Execution.finish, if_pos hfinished]
    | _ => rfl

/-- An execution whose cancellation was applied stays so, and one that has ended stays ended. -/
theorem Stepped.settled_kept (h : Stepped env s s') (hs : Healthy env s) {scanId : Uuid}
    (hsettled : Settled s.crawler.store scanId) : Settled s'.crawler.store scanId := by
  obtain ⟨e, he, hid, hcase⟩ := hsettled
  obtain ⟨e', he', hadvances⟩ := (h.crawler.telling hs.telling).2.executions e he
  have hid' : e'.scanId = e.scanId := (Crawler.Execution.of_fixed_eq hadvances.fixed).2.1
  refine ⟨e', he', hid'.trans hid, ?_⟩
  rcases hcase with hcancelled | hterminal
  · left
    obtain ⟨message, hmessage, haggregate, htype, houtcome⟩ :=
      (hs.cancellations.iff e he).1 hcancelled
    refine ((h.healthy hs).cancellations.iff e' he').2
      ⟨message, ?_, haggregate.trans hid'.symm, htype, houtcome⟩
    exact (h.crawler.conserved hs.telling.conserved).2.2.inbox_subset hmessage
  · right
    rw [hadvances.eq_of_terminal hterminal]
    exact hterminal

theorem Stepped.versions (h : Stepped env s s') (hs : Consistent env s) (hobeyed : Obeyed s) :
    ∀ e ∈ s'.crawler.store.executions, 0 < e.commandVersion → e.IsCancelled := by
  have hold := hobeyed.versions
  cases h with
  | crawled sys htransition hworked =>
    intro e' he' hversion
    obtain ⟨e, he, hsteps⟩ := worked_of_inbox
      (htransition.conserved hs.healthy.telling.conserved).2.2 hworked.inbox e' he'
    rw [commandVersion_of_steps hsteps] at hversion
    exact hsteps.isCancelled_iff.2 (hold e he hversion)
  | commandAccepted now receivedAt record envelope duplicate store hrecord hcommand haccepted =>
    obtain ⟨-, ⟨-, -, -, rfl⟩ | ⟨-, ⟨-, -, -, -, rfl⟩ | ⟨-, url, -, rfl⟩⟩⟩ :=
      Crawler.acceptCommand_cases haccepted
    · exact hold
    · exact hold
    · intro e he hversion
      rcases List.mem_append.1 he with he | he
      · exact hold e he hversion
      · obtain ⟨scan, -, hby⟩ := hs.linked.requestedBy hs.healthy hrecord hcommand
        rw [List.mem_singleton.1 he] at hversion
        have hzero : 0 < envelope.aggregateVersion := hversion
        rw [hby.aggregate.2.2.1] at hzero
        exact absurd hzero (lt_irrefl 0)
  | cancellationAccepted now receivedAt record envelope duplicate store hrecord hcommand
      haccepted =>
    obtain ⟨-, ⟨-, -, -, rfl⟩ | ⟨-, e, he, -, -, ⟨-, rfl⟩ | ⟨-, -, e', he', rfl⟩⟩⟩ :=
      Crawler.acceptCancellation_cases haccepted
    · exact hold
    · exact hold
    · intro e₂ he₂ hversion
      obtain ⟨e₁, he₁, ⟨-, rfl⟩ | ⟨-, rfl⟩⟩ := Crawler.mem_updateExecution.1 he₂
      · simp only [Crawler.Execution.IsCancelled, Crawler.Execution.cancel]
        split_ifs
        · exact .inr rfl
        · exact .inl rfl
      · exact hold e₂ he₁ hversion
  | idle => exact hold
  | requested => exact hold
  | siteCloneConsumed => exact hold
  | moved => exact hold
  | eventAccepted => exact hold
  | drawn => exact hold

theorem Stepped.settled (h : Stepped env s s') (hs : Consistent env s) (hobeyed : Obeyed s) :
    ∀ message ∈ s'.crawler.store.inboxMessages, message.messageType = .scanCancelRequested →
      Settled s'.crawler.store message.aggregateId := by
  have hkept : ∀ message ∈ s.crawler.store.inboxMessages,
      message.messageType = .scanCancelRequested →
      Settled s'.crawler.store message.aggregateId :=
    fun message hmessage htype ↦
      h.settled_kept hs.healthy (hobeyed.settled message hmessage htype)
  have hcancellations := (h.healthy hs.healthy).cancellations
  have hadded : ∀ row : Crawler.InboxMessage,
      (row.messageType = .scanCancelRequested → Settled s'.crawler.store row.aggregateId) →
      ∀ message ∈ s.crawler.store.inboxMessages ++ [row],
        message.messageType = .scanCancelRequested →
        Settled s'.crawler.store message.aggregateId := by
    intro row hrow message hmessage
    rcases List.mem_append.1 hmessage with hmessage | hmessage
    · exact hkept message hmessage
    · rw [List.mem_singleton.1 hmessage]
      exact hrow
  cases h with
  | crawled sys htransition hworked =>
    intro message hmessage
    rw [hworked.inbox] at hmessage
    exact hkept message hmessage
  | commandAccepted now receivedAt record envelope duplicate store hrecord hcommand haccepted =>
    obtain ⟨-, ⟨-, -, -, rfl⟩ | ⟨-, ⟨-, -, -, -, rfl⟩ | ⟨-, url, -, rfl⟩⟩⟩ :=
      Crawler.acceptCommand_cases haccepted
    · exact hkept
    · exact hadded _ nofun
    · exact hadded _ nofun
  | cancellationAccepted now receivedAt record envelope duplicate store hrecord hcommand
      haccepted =>
    obtain ⟨hvalid, ⟨-, -, -, rfl⟩ | ⟨-, e, he, hscan, -, ⟨hstale, rfl⟩ |
      ⟨-, -, e', he', rfl⟩⟩⟩ := Crawler.acceptCancellation_cases haccepted
    · exact hkept
    · -- what is stale for the execution came after a cancellation or after its end
      have hid := (Crawler.ScanCancelCommandEnvelope.aggregateId_of_validate hvalid).1
      obtain ⟨scan, -, hby⟩ := hs.linked.cancelledBy hs.healthy hrecord hcommand
      refine hadded _ fun _ ↦ ⟨e, he, hscan.trans hid.symm, ?_⟩
      rcases hstale with hversion | hterminal
      · exact .inl (hobeyed.versions e he (hby.version.1.trans_le hversion))
      · exact .inr hterminal
    · refine hadded _ fun _ ↦ ?_
      have hmem := List.mem_append_right s.crawler.store.inboxMessages (List.mem_singleton_self
        (envelope.inboxRow env.crawler .applied receivedAt))
      obtain ⟨known, hknown, hid⟩ := hcancellations.known _ hmem
      exact ⟨known, hknown, hid,
        .inl ((hcancellations.iff known hknown).2 ⟨_, hmem, hid.symm, rfl, rfl⟩)⟩
  | idle => exact hkept
  | requested => exact hkept
  | siteCloneConsumed => exact hkept
  | moved => exact hkept
  | eventAccepted => exact hkept
  | drawn => exact hkept

theorem obeyed_after (env : Env) (actions : List Action) : Obeyed (State.after env actions) := by
  refine (after_invariant (P := fun s ↦ Consistent env s ∧ Obeyed s)
    ⟨consistent_after env [], ?_, ?_⟩
    (fun hstep h ↦ ⟨hstep.consistent h.1, hstep.versions h.1 h.2, hstep.settled h.1 h.2⟩) actions).2
  · exact fun _ h ↦ absurd h List.not_mem_nil
  · exact fun _ h ↦ absurd h List.not_mem_nil

/-! ### Requests -/

/-- A user asked to cancel the scan. -/
def WasRequested (s : State) (scanId : Uuid) : Prop :=
  ∃ envelope, .scanCancelRequested envelope ∈ s.control.commands ∧
    envelope.payload.scanId = scanId

/-- A cancellation that the crawler applied was asked for. -/
theorem wasRequested_of_cancelled (hs : Consistent env s) (h : Taken env s)
    {e : Crawler.Execution} (he : e ∈ s.crawler.store.executions) (hcancelled : e.IsCancelled) :
    WasRequested s e.scanId := by
  obtain ⟨message, hmessage, hid, htype, -⟩ :=
    (hs.healthy.cancellations.iff e he).1 hcancelled
  obtain ⟨command, hcommand, hrow⟩ := h.rows message hmessage
  cases command with
  | scanRequested envelope =>
    obtain ⟨outcome, receivedAt, rfl⟩ := hrow
    cases htype
  | scanCancelRequested envelope =>
    obtain ⟨outcome, receivedAt, rfl⟩ := hrow
    obtain ⟨scan, -, hby⟩ : ∃ scan ∈ s.control.scans, ScanCancelledBy scan envelope :=
      hs.healthy.sound.commanded.justified _ hcommand
    exact ⟨envelope, hcommand, hby.scanId.trans (hby.aggregate.2.1.symm.trans hid)⟩
  | siteClone => exact hrow.elim

/-- A scan that ended as cancelled has a cancelled execution. -/
theorem isCancelled_of_concluded {scan : Scan} {e : Crawler.Execution} (h : Concluded scan e)
    (hstatus : scan.status = .cancelled) : e.IsCancelled := by
  have hshown : ScanStatus.valueOf (executionStatusText e.publicStatus) = some .cancelled :=
    hstatus ▸ h.outcome.status
  unfold Crawler.Execution.publicStatus Crawler.publicStatus at hshown
  rw [h.ended, if_neg (Ne.symm Bool.false_ne_true)] at hshown
  split_ifs at hshown with hcancelled
  · exact .inr hcancelled
  all_goals cases hshown

/-- Whatever comes in any order: a cancellation that was delivered has taken effect, for its
execution is being cancelled or has ended, and only what a user asked for is cancelled, in the
crawler and in the Control Plane. -/
theorem cancellations_obeyed (env : Env) (actions : List Action) :
    (∀ row ∈ (State.after env actions).control.outbox, row.status = .delivered → ∀ envelope,
      row.command = .scanCancelRequested envelope →
        Settled (State.after env actions).crawler.store envelope.payload.scanId) ∧
    (∀ e ∈ (State.after env actions).crawler.store.executions, e.IsCancelled →
      WasRequested (State.after env actions) e.scanId) ∧
    ∀ scan ∈ (State.after env actions).control.scans, scan.status = .cancelled →
      WasRequested (State.after env actions) scan.id := by
  have hs := consistent_after env actions
  have h := taken_after env actions
  refine ⟨fun row hrow hdelivered envelope hcommand ↦ ?_,
    fun e he ↦ wasRequested_of_cancelled hs h he, fun scan hscan hstatus ↦ ?_⟩
  · have hmem : row.command ∈ (State.after env actions).control.commands :=
      List.mem_map_of_mem hrow
    have hjustified := hs.healthy.sound.commanded.justified _ hmem
    rw [hcommand] at hjustified
    obtain ⟨scan, -, hby⟩ := hjustified
    rcases hs.carried.commands row hrow hdelivered with htype | htaken
    · rw [hcommand] at htype
      exact absurd (hby.aggregate.1.symm.trans htype) (by decide)
    · obtain ⟨message, hmessage, hid⟩ := List.mem_map.1 htaken
      have hof := h.row_of hs hmem hmessage hid
      rw [hcommand] at hof
      obtain ⟨outcome, receivedAt, rfl⟩ := hof
      have hsettled := (obeyed_after env actions).settled _ hmessage rfl
      rw [hby.scanId, ← hby.aggregate.2.1]
      exact hsettled
  · obtain ⟨e, he, hof, hconcluded⟩ := hs.concluded hscan (hstatus ▸ rfl)
    rw [← hof.scanId]
    exact wasRequested_of_cancelled hs h he (isCancelled_of_concluded hconcluded hstatus)

end WebLens.Scanning
