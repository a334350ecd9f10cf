import WebLens.ControlPlane.Admission

/-!
# Deliveries of the outbox

A dispatcher claims commands for a while, and completes or returns them. No command is ever lost: it
is delivered for good, or from some instant on it can be claimed. A record that lost its claim can
neither complete nor return its row.
-/

set_option autoImplicit false
set_option relaxedAutoImplicit false

namespace WebLens.ControlPlane

open Lib Lib.Table
open Capture (Uuid)
open Crawler (Instant)

variable {env : WorkflowEnv} {consuming delivering : Prop} {s s' : WorkflowTables}

/-! ### Rows -/

/-- A later state of a row: it is about the same command, a delivered row stays, and no attempt is
forgotten. -/
structure OutboxRow.Follows (row row' : OutboxRow) : Prop where
  command : row'.command = row.command
  createdAt : row'.createdAt = row.createdAt
  attempts : row.deliveryAttempts ≤ row'.deliveryAttempts
  final : row.status = .delivered → row' = row

theorem OutboxRow.Follows.refl (row : OutboxRow) : row.Follows row :=
  ⟨rfl, rfl, le_rfl, fun _ ↦ rfl⟩

theorem OutboxRow.Follows.trans {first second third : OutboxRow} (h : first.Follows second)
    (h' : second.Follows third) : first.Follows third where
  command := h'.command.trans h.command
  createdAt := h'.createdAt.trans h.createdAt
  attempts := h.attempts.trans h'.attempts
  final hstatus := by
    have hsame := h.final hstatus
    rw [h'.final (hsame ▸ hstatus), hsame]

theorem OutboxRow.isClaimedBy_iff {record : OutboxRecord} {row : OutboxRow} :
    row.isClaimedBy record = true ↔ row.messageId = record.messageId ∧ row.status = .claimed ∧
      row.leaseOwner = some record.leaseOwner := by
  simp only [OutboxRow.isClaimedBy, Bool.and_eq_true, decide_eq_true_eq, and_assoc]

theorem OutboxRow.not_due_of_delivered {row : OutboxRow} (h : row.status = .delivered)
    (now : Instant) : row.isDue now = false := by
  rw [OutboxRow.isDue, h]
  rfl

/-- A statement of the outbox leaves delivered rows alone. -/
theorem OutboxMove.not_delivered {rows : List OutboxRow} {sel : OutboxRow → Bool}
    {set : OutboxRow → OutboxRow} (h : OutboxMove rows sel set)
    (hids : (rows.map OutboxRow.messageId).Nodup) {row : OutboxRow} (hrow : row ∈ rows)
    (hsel : sel row = true) : row.status ≠ .delivered := by
  intro hstatus
  cases h with
  | claimed now leaseUntil workerId sel hdue =>
    obtain ⟨due, hmem, hid, hdue⟩ := hdue row hrow hsel
    obtain rfl := eq_of_key_eq hids hmem hrow hid
    exact absurd ((OutboxRow.not_due_of_delivered hstatus now).symm.trans hdue)
      Bool.false_ne_true
  | delivered record =>
    exact absurd ((OutboxRow.isClaimedBy_iff.1 hsel).2.1.symm.trans hstatus) (by decide)
  | returned record availableAt =>
    exact absurd ((OutboxRow.isClaimedBy_iff.1 hsel).2.1.symm.trans hstatus) (by decide)

/-- The commands that were enqueued between two states of the tables. -/
def Enqueued (s s' : WorkflowTables) : Prop :=
  ∃ rows : List OutboxRow, (∀ row ∈ rows, row.status = .pending) ∧ s'.outbox = s.outbox ++ rows

theorem Enqueued.of_eq (h : s'.outbox = s.outbox) : Enqueued s s' :=
  ⟨[], fun _ hrow ↦ absurd hrow List.not_mem_nil, h.trans (List.append_nil _).symm⟩

theorem enqueued_one {now : Instant} {command : Command}
    (h : s'.outbox = s.outbox ++ [outboxRow now command]) : Enqueued s s' := by
  refine ⟨[outboxRow now command], fun row hrow ↦ ?_, h⟩
  rw [List.mem_singleton.1 hrow]
  rfl

theorem Enqueued.trans {s₁ s₂ s₃ : WorkflowTables} (h : Enqueued s₁ s₂) (h' : Enqueued s₂ s₃) :
    Enqueued s₁ s₃ := by
  obtain ⟨rows, hrows, heq⟩ := h
  obtain ⟨rows', hrows', heq'⟩ := h'
  refine ⟨rows ++ rows', fun row hrow ↦ ?_, by rw [heq', heq, List.append_assoc]⟩
  exact (List.mem_append.1 hrow).elim (hrows row) (hrows' row)

/-- A write enqueues commands, or it is one of a dispatcher. -/
theorem Write.outbox_cases (h : Write env consuming delivering s s') :
    Enqueued s s' ∨ delivering ∧ ∃ sel set, OutboxMove s.outbox sel set ∧
      s' = { s with outbox := Table.update sel set s.outbox } := by
  cases h with
  | outboxMoved hdelivering sel set hmove => exact .inr ⟨hdelivering, sel, set, hmove, rfl⟩
  | scanAdded => exact .inl (enqueued_one rfl)
  | scanCancelling => exact .inl (enqueued_one rfl)
  | cloneCancelling => exact .inl (enqueued_one rfl)
  | scanProjected envelope scan next projection s₁ hvalid hnew hscan hid howner hprojection hnext
      hcoordinated =>
    cases hcoordinated with
    | untouched => exact .inl (.of_eq rfl)
    | dispatched => exact .inl (enqueued_one rfl)
    | failed => exact .inl (.of_eq rfl)
  | websiteAdded => exact .inl (.of_eq rfl)
  | websiteArchived => exact .inl (.of_eq rfl)
  | cloneAdded => exact .inl (.of_eq rfl)
  | cloneCancelled => exact .inl (.of_eq rfl)
  | ignored => exact .inl (.of_eq rfl)
  | cloneProjected => exact .inl (.of_eq rfl)

/-- A transaction that is not one of a dispatcher enqueues commands and does nothing else to the
outbox. -/
theorem Writes.enqueued (h : Writes env consuming False s s') : Enqueued s s' := by
  induction h with
  | refl => exact .of_eq rfl
  | tail _ hlast ih => exact ih.trans (hlast.outbox_cases.resolve_right fun h ↦ h.1.elim)

end WebLens.ControlPlane
