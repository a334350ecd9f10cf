import WebLens.Crawler.Politeness
import WebLens.Scanning.Mirrored

/-!
# Commands are taken

The crawler takes every well-formed command that a dispatcher of the Control Plane holds, at any
time: a command is never refused for what came before it, except that a cancellation waits until
the scan was started. A command that counts as delivered has been taken.
-/

set_option autoImplicit false
set_option relaxedAutoImplicit false

namespace WebLens.Scanning

open Lib Lib.Table Lib.Transaction ControlPlane
open Capture (Uuid)
open Crawler (Instant)

variable {env : Env} {s s' : State}

/-! ### What the crawler took -/

/-- The inbox row is that of the command. -/
def RowOf (env : Crawler.Env) (message : Crawler.InboxMessage) : Command → Prop
  | .scanRequested envelope => ∃ outcome receivedAt,
      message = envelope.inboxRow env outcome receivedAt
  | .scanCancelRequested envelope => ∃ outcome receivedAt,
      message = envelope.inboxRow env outcome receivedAt
  | .siteClone _ => False

/-- The command that started the execution was taken. -/
def StartTaken (s : State) (e : Crawler.Execution) : Prop :=
  ∃ envelope, .scanRequested envelope ∈ s.control.commands ∧ envelope.aggregateId = e.scanId ∧
    envelope.messageId ∈ s.taken

/-- What the crawler took are commands of the Control Plane, and its leases are paired at some
time. -/
structure Taken (env : Env) (s : State) : Prop where
  rows : ∀ message ∈ s.crawler.store.inboxMessages, ∃ command ∈ s.control.commands,
    RowOf env.crawler message command
  starts : ∀ e ∈ s.crawler.store.executions, StartTaken s e
  polite : ∃ now, Crawler.Polite env.crawler now s.crawler.store

theorem RowOf.messageId {message : Crawler.InboxMessage} {command : Command}
    (h : RowOf env.crawler message command) : message.messageId = command.messageId := by
  cases command with
  | scanRequested envelope =>
    obtain ⟨outcome, receivedAt, rfl⟩ := h
    rfl
  | scanCancelRequested envelope =>
    obtain ⟨outcome, receivedAt, rfl⟩ := h
    rfl
  | siteClone => exact h.elim

theorem Stepped.rows (h : Stepped env s s') (hlinked : Linked s)
    (hrows : ∀ message ∈ s.crawler.store.inboxMessages, ∃ command ∈ s.control.commands,
      RowOf env.crawler message command) :
    ∀ message ∈ s'.crawler.store.inboxMessages, ∃ command ∈ s'.control.commands,
      RowOf env.crawler message command := by
  have hkept : ∀ message ∈ s.crawler.store.inboxMessages, ∃ command ∈ s'.control.commands,
      RowOf env.crawler message command := by
    intro message hmessage
    obtain ⟨command, hcommand, hrow⟩ := hrows message hmessage
    exact ⟨command, h.commands_subset hcommand, hrow⟩
  have hadded : ∀ record ∈ s.records, ∀ row, RowOf env.crawler row record.command →
      ∀ message ∈ s.crawler.store.inboxMessages ++ [row], ∃ command ∈ s'.control.commands,
        RowOf env.crawler message command := by
    intro record hrecord row hrow message hmessage
    rcases List.mem_append.1 hmessage with hmessage | hmessage
    · exact hkept message hmessage
    · rw [List.mem_singleton.1 hmessage]
      exact ⟨record.command, h.commands_subset (hlinked.records record hrecord), hrow⟩
  cases h with
  | crawled sys htransition hworked =>
    intro message hmessage
    rw [hworked.inbox] at hmessage
    exact hkept message hmessage
  | commandAccepted now receivedAt record envelope duplicate store hrecord hcommand haccepted =>
    have hof : ∀ outcome, RowOf env.crawler (envelope.inboxRow env.crawler outcome receivedAt)
        record.command := by
      intro outcome
      rw [hcommand]
      exact ⟨outcome, receivedAt, rfl⟩
    obtain ⟨-, ⟨-, -, -, rfl⟩ | ⟨-, ⟨-, -, -, -, rfl⟩ | ⟨-, url, -, rfl⟩⟩⟩ :=
      Crawler.acceptCommand_cases haccepted
    · exact hkept
    · exact hadded record hrecord _ (hof _)
    · exact hadded record hrecord _ (hof _)
  | cancellationAccepted now receivedAt record envelope duplicate store hrecord hcommand
      haccepted =>
    have hof : ∀ outcome, RowOf env.crawler (envelope.inboxRow env.crawler outcome receivedAt)
        record.command := by
      intro outcome
      rw [hcommand]
      exact ⟨outcome, receivedAt, rfl⟩
    obtain ⟨-, ⟨-, -, -, rfl⟩ | ⟨-, e, he, -, -, ⟨-, rfl⟩ | ⟨-, -, e', he', rfl⟩⟩⟩ :=
      Crawler.acceptCancellation_cases haccepted
    · exact hkept
    · exact hadded record hrecord _ (hof _)
    · exact hadded record hrecord _ (hof _)
  | idle => exact hkept
  | requested => exact hkept
  | siteCloneConsumed => exact hkept
  | moved => exact hkept
  | eventAccepted => exact hkept
  | drawn => exact hkept

theorem Stepped.starts (h : Stepped env s s') (hs : Healthy env s) (hlinked : Linked s)
    (hstarts : ∀ e ∈ s.crawler.store.executions, StartTaken s e) :
    ∀ e ∈ s'.crawler.store.executions, StartTaken s' e := by
  have hcommands := h.commands_subset
  have htaken := h.taken_subset hs
  have hkept : ∀ e ∈ s.crawler.store.executions, ∀ e' : Crawler.Execution, e'.fixed = e.fixed →
      StartTaken s' e' := by
    intro e he e' hfixed
    obtain ⟨envelope, hcommand, hid, hmessage⟩ := hstarts e he
    exact ⟨envelope, hcommands hcommand,
      hid.trans (Crawler.Execution.of_fixed_eq hfixed).2.1.symm, htaken hmessage⟩
  have hsame : ∀ e ∈ s.crawler.store.executions, StartTaken s' e := fun e he ↦ hkept e he e rfl
  cases h with
  | crawled sys htransition hworked =>
    intro e' he'
    obtain ⟨e, he, hsteps⟩ := worked_of_inbox
      (htransition.conserved hs.telling.conserved).2.2 hworked.inbox e' he'
    exact hkept e he e' hsteps.fixed
  | commandAccepted now receivedAt record envelope duplicate store hrecord hcommand haccepted =>
    obtain ⟨hvalid, ⟨-, -, -, rfl⟩ | ⟨-, ⟨-, -, -, -, rfl⟩ | ⟨-, url, -, rfl⟩⟩⟩ :=
      Crawler.acceptCommand_cases haccepted
    · exact hsame
    · exact hsame
    · intro e he
      rcases List.mem_append.1 he with he | he
      · exact hsame e he
      · rw [List.mem_singleton.1 he]
        refine ⟨envelope, hcommand ▸ hlinked.records record hrecord,
          (Crawler.ScanCommandEnvelope.limits_of_validate hvalid).1, List.mem_map.2 ?_⟩
        exact ⟨_, List.mem_append_right _ (List.mem_singleton_self _), rfl⟩
  | cancellationAccepted now receivedAt record envelope duplicate store hrecord hcommand
      haccepted =>
    obtain ⟨-, ⟨-, -, -, rfl⟩ | ⟨-, e, he, -, -, ⟨-, rfl⟩ | ⟨-, -, e', he', rfl⟩⟩⟩ :=
      Crawler.acceptCancellation_cases haccepted
    · exact hsame
    · exact hsame
    · intro e₂ he₂
      obtain ⟨e₁, he₁, ⟨-, rfl⟩ | ⟨-, rfl⟩⟩ := Crawler.mem_updateExecution.1 he₂
      · exact hkept e₁ he₁ _ rfl
      · exact hsame e₂ he₁
  | idle => exact hsame
  | requested => exact hsame
  | siteCloneConsumed => exact hsame
  | moved => exact hsame
  | eventAccepted => exact hsame
  | drawn => exact hsame

/-- The leases stay paired, seen from a later time. -/
theorem Stepped.polite (h : Stepped env s s') (hs : Healthy env s)
    (hpolite : ∃ now, Crawler.Polite env.crawler now s.crawler.store) :
    ∃ now, Crawler.Polite env.crawler now s'.crawler.store := by
  obtain ⟨now, hpolite⟩ := hpolite
  obtain ⟨readings, htransition⟩ := h.crawler
  obtain ⟨later, hlater⟩ := (readings.finite_toSet).bddAbove
  have hmono : Crawler.Polite env.crawler (max now later) s.crawler.store :=
    ⟨hpolite.slotted, hpolite.paired.mono fun _ hlt ↦ (le_max_left now later).trans_lt hlt⟩
  exact ⟨max now later, htransition.polite hs.telling.conserved
    (fun reading hreading ↦ (hlater hreading).trans (le_max_right now later)) hmono⟩

theorem taken_empty : Taken env {} where
  rows := fun _ h ↦ absurd h List.not_mem_nil
  starts := fun _ h ↦ absurd h List.not_mem_nil
  polite := ⟨0, @Crawler.polite_after env.crawler 0 [] fun _ h ↦ absurd h List.not_mem_nil⟩

theorem taken_after (env : Env) (actions : List Action) : Taken env (State.after env actions) :=
  (after_invariant (P := fun s ↦ Consistent env s ∧ Taken env s)
    ⟨⟨healthy_empty, linked_empty, carried_empty, mirrored_empty⟩, taken_empty⟩
    (fun hstep h ↦ ⟨hstep.consistent h.1, hstep.rows h.1.linked h.2.rows,
      hstep.starts h.1.healthy h.1.linked h.2.starts, hstep.polite h.1.healthy h.2.polite⟩)
    actions).2

/-! ### Taking a command -/

/-- The inbox row under the identifier of a command is its own. -/
theorem Taken.row_of (h : Taken env s) (hs : Consistent env s) {command : Command}
    (hcommand : command ∈ s.control.commands) {message : Crawler.InboxMessage}
    (hmessage : message ∈ s.crawler.store.inboxMessages)
    (hid : message.messageId = command.messageId) : RowOf env.crawler message command := by
  obtain ⟨other, hother, hrow⟩ := h.rows message hmessage
  obtain ⟨row, hmem, rfl⟩ := List.mem_map.1 hcommand
  rw [command_of_messageId hs.healthy hother hmem (hrow.messageId.symm.trans hid)]
  exact hrow

end WebLens.Scanning
