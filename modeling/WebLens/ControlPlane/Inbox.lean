import WebLens.ControlPlane.Writes

/-!
# The inbox of the Control Plane

The events of the crawler and of the site clone worker are delivered at least once. The inbox lets
each take effect at most once: once an event was answered, whatever comes under its identifier
changes nothing, and the event itself is answered as a duplicate.
-/

set_option autoImplicit false
set_option relaxedAutoImplicit false

namespace WebLens.ControlPlane

open Lib Lib.Table Lib.Transaction Lib.Utf8
open Capture (Uuid)
open Crawler (Instant)

variable {env : WorkflowEnv} {consuming delivering : Prop} {s s' : WorkflowTables}

/-- The identifier of the event that a transaction consumes. -/
def WorkflowAction.message : WorkflowAction → Option Uuid
  | .consumeScanEvent _ envelope => some envelope.messageId
  | .consumeSiteCloneEvent envelope => some envelope.messageId
  | _ => none

/-- The identifiers of the events that were consumed. -/
def WorkflowTables.consumed (s : WorkflowTables) : List Uuid :=
  s.inbox.map InboxRecord.messageId

/-! ### Writes -/

theorem Coordinated.inbox {scan : Scan} (h : Coordinated env scan s s') : s'.inbox = s.inbox := by
  cases h with
  | untouched => rfl
  | dispatched => rfl
  | failed => rfl

theorem not_consumed_of_find {messageId : Uuid}
    (h : s.inbox.find? (fun record ↦ decide (record.messageId = messageId)) = none) :
    messageId ∉ s.consumed := by
  intro hmem
  obtain ⟨record, hrecord, hid⟩ := List.mem_map.1 hmem
  exact List.find?_eq_none.1 h record hrecord (decide_eq_true hid)

/-- A write records at most one event, which was not consumed before. -/
theorem Write.inbox_cases (h : Write env consuming delivering s s') :
    s'.inbox = s.inbox ∨ consuming ∧
      ∃ record : InboxRecord, record.messageId ∉ s.consumed ∧ s'.inbox = s.inbox ++ [record] := by
  cases h with
  | ignored messageId hash hnew hconsuming =>
    exact .inr ⟨hconsuming, ⟨messageId, hash⟩, not_consumed_of_find hnew, rfl⟩
  | scanProjected envelope scan next projection s₁ hvalid hnew hscan hid howner hprojection hnext
      hcoordinated hconsuming =>
    refine .inr ⟨hconsuming,
      ⟨envelope.messageId, env.sha256 (env.writeScanPayload envelope.payload)⟩,
      not_consumed_of_find hnew, ?_⟩
    rw [WorkflowTables.withInbox, hcoordinated.inbox]
    rfl
  | cloneProjected envelope clone next hnew hclone hid hnext hconsuming =>
    exact .inr ⟨hconsuming, ⟨envelope.messageId, _⟩, not_consumed_of_find hnew, rfl⟩
  | websiteAdded => exact .inl rfl
  | websiteArchived => exact .inl rfl
  | scanAdded => exact .inl rfl
  | scanCancelling => exact .inl rfl
  | cloneAdded => exact .inl rfl
  | cloneCancelled => exact .inl rfl
  | cloneCancelling => exact .inl rfl
  | outboxMoved => exact .inl rfl

/-- Requests leave the inbox alone. -/
theorem Writes.inbox_eq (h : Writes env False delivering s s') : s'.inbox = s.inbox := by
  induction h with
  | refl => rfl
  | tail _ hlast ih => exact (hlast.inbox_cases.resolve_right fun h ↦ h.1).trans ih

theorem Write.consumed_nodup (h : Write env consuming delivering s s') (hnodup : s.consumed.Nodup) :
    s'.consumed.Nodup := by
  unfold WorkflowTables.consumed at hnodup ⊢
  obtain heq | ⟨-, record, hnew, heq⟩ := h.inbox_cases
  · rwa [heq]
  · rw [heq]
    exact nodup_map_concat hnodup fun other hother hid ↦ hnew (hid ▸ List.mem_map_of_mem hother)

theorem Write.inbox_subset (h : Write env consuming delivering s s') : s.inbox ⊆ s'.inbox := by
  obtain heq | ⟨-, record, -, heq⟩ := h.inbox_cases
  · rw [heq]
    exact List.Subset.refl _
  · rw [heq]
    exact List.subset_append_left _ _

theorem consumed_nodup_after (env : WorkflowEnv) (actions : List WorkflowAction) :
    (WorkflowTables.after env actions).consumed.Nodup :=
  after_invariant (P := fun s ↦ s.consumed.Nodup) List.nodup_nil Write.consumed_nodup actions

/-- What is in the inbox stays there. -/
theorem run_inbox (s : WorkflowTables) (actions : List WorkflowAction) {record : InboxRecord}
    (h : record ∈ s.inbox) : record ∈ (run (WorkflowTables.step env) s actions).inbox :=
  run_invariant (P := fun s : WorkflowTables ↦ record ∈ s.inbox)
    (fun s action h ↦ (step_writes s action).invariant
      (P := fun s : WorkflowTables ↦ record ∈ s.inbox) (fun hwrite h ↦ hwrite.inbox_subset h) h)
    h actions

/-! ### Redelivery -/

theorem consumed_of_record {record : InboxRecord} (hrecord : record ∈ s.inbox) {messageId : Uuid}
    (hid : record.messageId = messageId)
    (hnew : s.inbox.find? (fun record ↦ decide (record.messageId = messageId)) = none) : False :=
  not_consumed_of_find hnew (hid ▸ List.mem_map_of_mem hrecord)

/-- Whatever comes under the identifier of a consumed event changes nothing. -/
theorem step_of_consumed {record : InboxRecord} (hrecord : record ∈ s.inbox)
    {action : WorkflowAction} (hmessage : action.message = some record.messageId) :
    s.step env action = s := by
  cases action with
  | consumeScanEvent now envelope =>
    have hid := (Option.some.inj hmessage).symm
    refine commit_snd_eq fun outcome s' h ↦ ?_
    cases consumeScanEvent_cases h with
    | duplicate => rfl
    | stale scan hscan hscanId howner hnew => exact (consumed_of_record hrecord hid hnew).elim
    | applied scan next projection s₁ hscan hscanId howner hvalid hnew =>
      exact (consumed_of_record hrecord hid hnew).elim
  | consumeSiteCloneEvent envelope =>
    have hid := (Option.some.inj hmessage).symm
    refine commit_snd_eq fun outcome s' h ↦ ?_
    cases consumeSiteCloneEvent_cases h with
    | duplicate => rfl
    | stale hnew => exact (consumed_of_record hrecord hid hnew).elim
    | applied clone next hclone hcloneId hnew => exact (consumed_of_record hrecord hid hnew).elim
  | createWebsite => cases hmessage
  | archiveWebsite => cases hmessage
  | createScan => cases hmessage
  | cancelScan => cases hmessage
  | createSiteClone => cases hmessage
  | cancelSiteClone => cases hmessage
  | claim => cases hmessage
  | complete => cases hmessage
  | retry => cases hmessage

/-- An event that is answered has a record with the hash of its payload. -/
theorem consumeScanEvent_recorded {now : Instant} {envelope : Crawler.ScanEventEnvelope}
    {outcome : ConsumeOutcome} (h : Returns (consumeScanEvent env now envelope) s outcome s') :
    ∃ record ∈ s'.inbox, record.messageId = envelope.messageId ∧
      record.payloadSha256 = env.sha256 (env.writeScanPayload envelope.payload) := by
  cases consumeScanEvent_cases h with
  | duplicate record hrecord hid hhash => exact ⟨record, hrecord, hid, hhash⟩
  | stale => exact ⟨_, List.mem_append_right _ (List.mem_singleton_self _), rfl, rfl⟩
  | applied => exact ⟨_, List.mem_append_right _ (List.mem_singleton_self _), rfl, rfl⟩

theorem consumeSiteCloneEvent_recorded {envelope : SiteClone.SiteCloneEventEnvelope}
    {outcome : ConsumeOutcome}
    (h : Returns (consumeSiteCloneEvent env envelope) s outcome s') :
    ∃ record ∈ s'.inbox, record.messageId = envelope.messageId ∧
      record.payloadSha256 = env.sha256 (env.writeSiteClonePayload envelope.payload) := by
  cases consumeSiteCloneEvent_cases h with
  | duplicate record hrecord hid hhash => exact ⟨record, hrecord, hid, hhash⟩
  | stale => exact ⟨_, List.mem_append_right _ (List.mem_singleton_self _), rfl, rfl⟩
  | applied => exact ⟨_, List.mem_append_right _ (List.mem_singleton_self _), rfl, rfl⟩

theorem find_record (hnodup : s.consumed.Nodup) {record : InboxRecord} (hrecord : record ∈ s.inbox)
    {messageId : Uuid} (hid : record.messageId = messageId) :
    s.inbox.find? (fun record ↦ decide (record.messageId = messageId)) = some record := by
  subst hid
  exact find?_key hnodup hrecord

/-- An event that was answered is answered again, as a duplicate. -/
theorem consumeScanEvent_again {now now' : Instant} {envelope : Crawler.ScanEventEnvelope}
    {outcome : ConsumeOutcome} {first last : WorkflowTables}
    (h : Returns (consumeScanEvent env now envelope) s outcome first)
    (hkept : first.inbox ⊆ last.inbox) (hnodup : last.consumed.Nodup) :
    Returns (consumeScanEvent env now' envelope) last .ignoredDuplicate last := by
  obtain ⟨record, hrecord, hid, hhash⟩ := consumeScanEvent_recorded h
  have hfind := find_record hnodup (hkept hrecord) hid
  simp only [consumeScanEvent, returns_bind, returns_require, returns_get] at h ⊢
  obtain ⟨_, _, ⟨hvalid, -⟩, _, _, ⟨henvelope, -⟩, -⟩ := h
  refine ⟨(), last, ⟨hvalid, rfl⟩, (), last, ⟨henvelope, rfl⟩, last, last, ⟨rfl, rfl⟩, ?_⟩
  simp only [hfind, returns_bind, returns_require]
  exact ⟨(), last, ⟨hhash, rfl⟩, returns_pure.2 ⟨rfl, rfl⟩⟩

theorem consumeSiteCloneEvent_again {envelope : SiteClone.SiteCloneEventEnvelope}
    {outcome : ConsumeOutcome} {first last : WorkflowTables}
    (h : Returns (consumeSiteCloneEvent env envelope) s outcome first)
    (hkept : first.inbox ⊆ last.inbox) (hnodup : last.consumed.Nodup) :
    Returns (consumeSiteCloneEvent env envelope) last .ignoredDuplicate last := by
  obtain ⟨record, hrecord, hid, hhash⟩ := consumeSiteCloneEvent_recorded h
  have hfind := find_record hnodup (hkept hrecord) hid
  simp only [consumeSiteCloneEvent, returns_bind, returns_require, returns_get] at h ⊢
  obtain ⟨_, _, ⟨hvalid, -⟩, _, _, ⟨henvelope, -⟩, -⟩ := h
  refine ⟨(), last, ⟨hvalid, rfl⟩, (), last, ⟨henvelope, rfl⟩, last, last, ⟨rfl, rfl⟩, ?_⟩
  simp only [hfind, returns_bind, returns_require]
  exact ⟨(), last, ⟨hhash, rfl⟩, returns_pure.2 ⟨rfl, rfl⟩⟩

/-- Whatever happens in between: no event is recorded twice; once an event was answered, everything
that comes under its identifier leaves the tables as they are; and the event itself is answered
again, as a duplicate. -/
theorem events_once (env : WorkflowEnv) (earlier later : List WorkflowAction) :
    (WorkflowTables.after env earlier).consumed.Nodup ∧
      (∀ now envelope outcome s', Returns (consumeScanEvent env now envelope)
          (WorkflowTables.after env earlier) outcome s' →
        (∀ action : WorkflowAction, action.message = some envelope.messageId →
          (run (WorkflowTables.step env) s' later).step env action =
            run (WorkflowTables.step env) s' later) ∧
        ∀ now', Returns (consumeScanEvent env now' envelope)
          (run (WorkflowTables.step env) s' later) .ignoredDuplicate
          (run (WorkflowTables.step env) s' later)) ∧
      ∀ envelope outcome s', Returns (consumeSiteCloneEvent env envelope)
          (WorkflowTables.after env earlier) outcome s' →
        (∀ action : WorkflowAction, action.message = some envelope.messageId →
          (run (WorkflowTables.step env) s' later).step env action =
            run (WorkflowTables.step env) s' later) ∧
        Returns (consumeSiteCloneEvent env envelope)
          (run (WorkflowTables.step env) s' later) .ignoredDuplicate
          (run (WorkflowTables.step env) s' later) := by
  have hnodup := consumed_nodup_after env earlier
  have hrun : ∀ s', Writes env True False (WorkflowTables.after env earlier) s' →
      (run (WorkflowTables.step env) s' later).consumed.Nodup := by
    intro s' hwrites
    exact run_invariant (P := fun s : WorkflowTables ↦ s.consumed.Nodup)
      (fun s action h ↦ (step_writes s action).invariant Write.consumed_nodup h)
      (hwrites.invariant Write.consumed_nodup hnodup) later
  refine ⟨hnodup, fun now envelope outcome s' h ↦ ⟨fun action hmessage ↦ ?_, fun now' ↦ ?_⟩,
    fun envelope outcome s' h ↦ ⟨fun action hmessage ↦ ?_, ?_⟩⟩
  · obtain ⟨record, hrecord, hid, -⟩ := consumeScanEvent_recorded h
    exact step_of_consumed (run_inbox s' later hrecord) (hid ▸ hmessage)
  · exact consumeScanEvent_again h (fun record ↦ run_inbox s' later)
      (hrun s' (consumeScanEvent_cases h).writes)
  · obtain ⟨record, hrecord, hid, -⟩ := consumeSiteCloneEvent_recorded h
    exact step_of_consumed (run_inbox s' later hrecord) (hid ▸ hmessage)
  · exact consumeSiteCloneEvent_again h (fun record ↦ run_inbox s' later)
      (hrun s' (consumeSiteCloneEvent_cases h).writes)

end WebLens.ControlPlane
