import WebLens.ControlPlane.Admission

/-!
# Dispatch of site clones

A site clone waits for the scan that was created with it. When the scan ends, the clone is
dispatched by one command, or it fails with a cancelled scan. `CloneMove` is what a write makes of a
clone, `Dispatching` relates the clones to the commands in the outbox.
-/

set_option autoImplicit false
set_option relaxedAutoImplicit false

namespace WebLens.ControlPlane

open Lib Lib.Table Lib.Transaction
open Capture (Uuid)
open Crawler (Instant)

variable {env : WorkflowEnv} {consuming delivering : Prop} {s s' : WorkflowTables}

/-! ### Rows of site clones -/

/-- What a write makes of a site clone. -/
inductive CloneMove (clone : SiteCloneRow) : SiteCloneRow → Prop
  | dispatched (hwaiting : clone.status = .waitingForScan) :
      CloneMove clone { clone with status := .queued, version := clone.version + 1 }
  | failed (next : SiteCloneRow) (code message : String)
      (hnext : clone.failFromScan code message = some next) :
      CloneMove clone { next with version := next.version + 1 }
  | cancelled (hwaiting : clone.status = .waitingForScan) :
      CloneMove clone { clone with status := .cancelled, version := clone.version + 1 }
  | cancelling (next : SiteCloneRow) (hstatus : clone.status ≠ .waitingForScan)
      (hnext : clone.requestCancellation = some next) :
      CloneMove clone { next with version := next.version + 1 }
  | projected (envelope : SiteClone.SiteCloneEventEnvelope) (next : SiteCloneRequest)
      (hnext : clone.toSiteCloneRequest.applyRemote envelope = .ok (some next)) :
      CloneMove clone { toSiteCloneRequest := next, version := clone.version + 1 }

/-- The columns that no write changes. -/
structure SiteCloneRow.Same (clone next : SiteCloneRow) : Prop where
  id : next.id = clone.id
  ownerId : next.ownerId = clone.ownerId
  websiteId : next.websiteId = clone.websiteId
  scanId : next.scanId = clone.scanId
  targetUrl : next.targetUrl = clone.targetUrl
  idempotencyKeyHash : next.idempotencyKeyHash = clone.idempotencyKeyHash
  requestFingerprintHash : next.requestFingerprintHash = clone.requestFingerprintHash

/-- A clone that is cancelled, or is being cancelled, or has ended otherwise. -/
def SiteCloneStatus.isLeaving (status : SiteCloneStatus) : Bool :=
  status.isTerminal || decide (status = .cancelRequested)

/-- How a site clone changes: it keeps its columns, never waits again, stays cancelled, and once it
is terminal nothing changes. -/
structure SiteCloneRow.Advances (clone next : SiteCloneRow) : Prop where
  same : clone.Same next
  waiting : next.status = .waitingForScan → clone.status = .waitingForScan
  queued : next.status = .queued → clone.status = .waitingForScan ∨ clone.status = .queued
  leaving : clone.status.isLeaving = true → next.status.isLeaving = true
  remote : clone.remoteJobVersion ≤ next.remoteJobVersion
  version : clone.version ≤ next.version
  final : clone.status.isTerminal = true → next = clone

theorem SiteCloneRow.Same.trans {first second third : SiteCloneRow} (h : first.Same second)
    (h' : second.Same third) : first.Same third :=
  ⟨h'.id.trans h.id, h'.ownerId.trans h.ownerId, h'.websiteId.trans h.websiteId,
    h'.scanId.trans h.scanId, h'.targetUrl.trans h.targetUrl,
    h'.idempotencyKeyHash.trans h.idempotencyKeyHash,
    h'.requestFingerprintHash.trans h.requestFingerprintHash⟩

theorem SiteCloneRow.Advances.refl (clone : SiteCloneRow) : clone.Advances clone :=
  ⟨⟨rfl, rfl, rfl, rfl, rfl, rfl, rfl⟩, id, .inr, id, le_rfl, le_rfl, fun _ ↦ rfl⟩

theorem SiteCloneRow.Advances.trans {first second third : SiteCloneRow}
    (h : first.Advances second) (h' : second.Advances third) : first.Advances third where
  same := h.same.trans h'.same
  waiting hwaiting := h.waiting (h'.waiting hwaiting)
  queued hqueued := (h'.queued hqueued).elim (fun hwaiting ↦ .inl (h.waiting hwaiting)) h.queued
  leaving hleaving := h'.leaving (h.leaving hleaving)
  remote := h.remote.trans h'.remote
  version := h.version.trans h'.version
  final hterminal := by
    have hsecond := h.final hterminal
    rw [← hsecond] at hterminal
    rw [h'.final hterminal, hsecond]

/-- No status of the worker makes a clone wait or queues it. -/
theorem valueOf_jobStatusText {status : SiteClone.JobStatus} {next : SiteCloneStatus}
    (h : SiteCloneStatus.valueOf (jobStatusText status).toUpper = some next) :
    next ≠ .waitingForScan ∧ next ≠ .queued := by
  rw [jobStatusText_toUpper] at h
  cases status with
  | ingesting => cases h
  | running =>
    cases h
    decide
  | assembling =>
    cases h
    decide
  | cancelRequested =>
    cases h
    decide
  | published =>
    cases h
    decide
  | partialArchive =>
    cases h
    decide
  | failed =>
    cases h
    decide
  | cancelled =>
    cases h
    decide
  | expired =>
    cases h
    decide

/-- An event that is applied is newer than the last and projects a clone that has not ended. -/
theorem SiteCloneRequest.applyRemote_some {request next : SiteCloneRequest}
    {envelope : SiteClone.SiteCloneEventEnvelope}
    (h : request.applyRemote envelope = .ok (some next)) :
    request.remoteJobVersion < envelope.aggregateVersion ∧ request.status.isTerminal = false ∧
      ∃ status, SiteCloneStatus.valueOf (jobStatusText envelope.payload.status).toUpper =
          some status ∧ (request.status = .cancelRequested → status.isTerminal = true) ∧
        next = request.project status envelope := by
  unfold applyRemote at h
  by_cases hstale : (envelope.aggregateVersion : ℤ) ≤ request.remoteJobVersion ∨
      request.status.isTerminal = true
  · rw [if_pos hstale] at h
    cases h
  rw [if_neg hstale] at h
  rw [not_or, not_le, Bool.not_eq_true] at hstale
  refine ⟨hstale.1, hstale.2, ?_⟩
  cases hstatus : SiteCloneStatus.valueOf (jobStatusText envelope.payload.status).toUpper with
  | none =>
    rw [hstatus] at h
    cases h
  | some status =>
    simp only [hstatus] at h
    split_ifs at h with hcounters hcancelling
    · cases h
    · refine ⟨status, rfl, fun hrequested ↦ ?_, (Option.some.inj (Except.ok.inj h)).symm⟩
      by_contra hactive
      rw [Bool.not_eq_true] at hactive
      refine hcancelling ⟨hrequested, fun hcancelled ↦ ?_, hactive⟩
      rw [hcancelled] at hactive
      cases hactive

theorem SiteCloneRow.failFromScan_some {clone next : SiteCloneRow} {code message : String}
    (h : clone.failFromScan code message = some next) :
    clone.status.isTerminal = false ∧ next.status = .failed ∧ clone.Same next ∧
      next.remoteJobVersion = clone.remoteJobVersion ∧ next.version = clone.version := by
  unfold failFromScan at h
  split_ifs at h with hterminal
  rw [← Option.some.inj h]
  exact ⟨Bool.eq_false_iff.2 hterminal, rfl, ⟨rfl, rfl, rfl, rfl, rfl, rfl, rfl⟩, rfl, rfl⟩

theorem SiteCloneRow.requestCancellation_some {clone next : SiteCloneRow}
    (h : clone.requestCancellation = some next) :
    clone.status.isLeaving = false ∧ next.status.isLeaving = true ∧
      (next.status = .cancelled ∨ next.status = .cancelRequested) ∧ clone.Same next ∧
      next.remoteJobVersion = clone.remoteJobVersion ∧ next.version = clone.version := by
  unfold requestCancellation at h
  split_ifs at h with hdone hqueued
  · rw [← Option.some.inj h]
    rw [not_or] at hdone
    refine ⟨?_, rfl, .inl rfl, ⟨rfl, rfl, rfl, rfl, rfl, rfl, rfl⟩, rfl, rfl⟩
    rw [SiteCloneStatus.isLeaving, Bool.eq_false_iff.2 hdone.1, decide_eq_false hdone.2]
    rfl
  · rw [← Option.some.inj h]
    rw [not_or] at hdone
    refine ⟨?_, rfl, .inr rfl, ⟨rfl, rfl, rfl, rfl, rfl, rfl, rfl⟩, rfl, rfl⟩
    rw [SiteCloneStatus.isLeaving, Bool.eq_false_iff.2 hdone.1, decide_eq_false hdone.2]
    rfl

/-- A clone that moves had not ended and does not wait any longer. -/
theorem CloneMove.advances {clone next : SiteCloneRow} (h : CloneMove clone next) :
    clone.Advances next ∧ clone.status.isTerminal = false ∧ next.status ≠ .waitingForScan := by
  cases h with
  | dispatched hwaiting =>
    have hactive : clone.status.isTerminal = false := by
      rw [hwaiting]
      rfl
    refine ⟨⟨⟨rfl, rfl, rfl, rfl, rfl, rfl, rfl⟩, fun _ ↦ hwaiting, fun _ ↦ .inl hwaiting,
      fun hleaving ↦ ?_, le_rfl, (Int.lt_succ _).le, fun hterminal ↦ ?_⟩, hactive, ?_⟩
    · rw [hwaiting] at hleaving
      cases hleaving
    · exact absurd (hactive.symm.trans hterminal) Bool.false_ne_true
    · exact SiteCloneStatus.noConfusion
  | failed next code message hnext =>
    obtain ⟨hactive, hstatus, hsame, hremote, hversion⟩ := SiteCloneRow.failFromScan_some hnext
    have hfailed : next.status ≠ .waitingForScan ∧ next.status ≠ .queued ∧
        next.status.isLeaving = true := by
      rw [hstatus]
      decide
    exact ⟨⟨⟨hsame.id, hsame.ownerId, hsame.websiteId, hsame.scanId, hsame.targetUrl,
      hsame.idempotencyKeyHash, hsame.requestFingerprintHash⟩, fun h ↦ absurd h hfailed.1,
      fun h ↦ absurd h hfailed.2.1, fun _ ↦ hfailed.2.2, hremote.ge,
      hversion ▸ (Int.lt_succ next.version).le,
      fun hterminal ↦ absurd (hactive.symm.trans hterminal) Bool.false_ne_true⟩, hactive,
      hfailed.1⟩
  | cancelled hwaiting =>
    have hactive : clone.status.isTerminal = false := by
      rw [hwaiting]
      rfl
    exact ⟨⟨⟨rfl, rfl, rfl, rfl, rfl, rfl, rfl⟩, SiteCloneStatus.noConfusion,
      SiteCloneStatus.noConfusion, fun _ ↦ rfl, le_rfl, (Int.lt_succ _).le,
      fun hterminal ↦ absurd (hactive.symm.trans hterminal) Bool.false_ne_true⟩, hactive,
      SiteCloneStatus.noConfusion⟩
  | cancelling next hstatus hnext =>
    obtain ⟨hstaying, hleaving, hcancelled, hsame, hremote, hversion⟩ :=
      SiteCloneRow.requestCancellation_some hnext
    have hactive := (Bool.or_eq_false_iff.1 hstaying).1
    have hneither : next.status ≠ .waitingForScan ∧ next.status ≠ .queued := by
      rcases hcancelled with h | h
      · rw [h]
        decide
      · rw [h]
        decide
    exact ⟨⟨⟨hsame.id, hsame.ownerId, hsame.websiteId, hsame.scanId, hsame.targetUrl,
      hsame.idempotencyKeyHash, hsame.requestFingerprintHash⟩, fun h ↦ absurd h hneither.1,
      fun h ↦ absurd h hneither.2, fun _ ↦ hleaving, hremote.ge,
      hversion ▸ (Int.lt_succ next.version).le,
      fun hterminal ↦ absurd (hactive.symm.trans hterminal) Bool.false_ne_true⟩, hactive,
      hneither.1⟩
  | projected envelope next hnext =>
    obtain ⟨hnewer, hactive, status, hvalue, hcancelling, rfl⟩ :=
      SiteCloneRequest.applyRemote_some hnext
    obtain ⟨hwaiting, hqueued⟩ := valueOf_jobStatusText hvalue
    refine ⟨⟨⟨rfl, rfl, rfl, rfl, rfl, rfl, rfl⟩, fun h ↦ absurd h hwaiting,
      fun h ↦ absurd h hqueued, fun hleaving ↦ ?_, hnewer.le, (Int.lt_succ _).le,
      fun hterminal ↦ absurd (hactive.symm.trans hterminal) Bool.false_ne_true⟩, hactive, hwaiting⟩
    unfold SiteCloneStatus.isLeaving at hleaving ⊢
    rw [hactive, Bool.false_or, decide_eq_true_eq] at hleaving
    exact Bool.or_eq_true_iff.2 (.inl (hcancelling hleaving))

theorem siteCloneOf_mem {scanId : Uuid} {clone : SiteCloneRow}
    (h : s.siteCloneOf scanId = some clone) : clone ∈ s.siteClones ∧ clone.scanId = scanId := by
  unfold WorkflowTables.siteCloneOf at h
  have hscan := List.find?_some h
  exact ⟨List.mem_of_find?_eq_some h, of_decide_eq_true hscan⟩

theorem Coordinated.siteClones_cases {scan : Scan} (h : Coordinated env scan s s') :
    s'.siteClones = s.siteClones ∨ ∃ clone ∈ s.siteClones, ∃ next, CloneMove clone next ∧
      s'.siteClones = Table.replace (fun clone ↦ clone.id) next s.siteClones := by
  cases h with
  | untouched => exact .inl rfl
  | dispatched now correlationId clone hclone hwaiting =>
    exact .inr ⟨clone, (siteCloneOf_mem hclone).1, _, .dispatched hwaiting, rfl⟩
  | failed clone next hclone hactive hstatus hnext =>
    exact .inr ⟨clone, (siteCloneOf_mem hclone).1, _, .failed next _ _ hnext, rfl⟩

/-- What a write makes of the site clones. -/
theorem Write.siteClones_cases (h : Write env consuming delivering s s') :
    s'.siteClones = s.siteClones ∨
      (∃ clone : SiteCloneRow, clone.id = s.nextUuid ∧ clone.status = .waitingForScan ∧
        clone.version = 0 ∧
        (∃ scan ∈ s.scans, clone.scanId = scan.id ∧ clone.ownerId = scan.requestedByUserId) ∧
        (∀ other ∈ s.siteClones, other.scanId ≠ clone.scanId) ∧
        (∀ other ∈ s.siteClones, other.ownerId = clone.ownerId →
          other.idempotencyKeyHash ≠ clone.idempotencyKeyHash) ∧
        s'.siteClones = s.siteClones ++ [clone] ∧ s'.outbox = s.outbox ∧ s'.scans = s.scans) ∨
      ∃ clone ∈ s.siteClones, ∃ next, CloneMove clone next ∧
        s'.siteClones = Table.replace (fun clone ↦ clone.id) next s.siteClones := by
  cases h with
  | cloneAdded clone scan hid hfresh hscan hscanId howner hsource hkey =>
    refine .inr (.inl ⟨clone, hid, hfresh.1, hfresh.2.1, ⟨scan, hscan, hscanId, howner⟩, ?_, hkey,
      rfl,
      rfl, rfl⟩)
    intro other hother
    have hother := List.all_eq_true.1 hsource other hother
    rw [Bool.not_eq_true', decide_eq_false_iff_not] at hother
    exact hother
  | cloneCancelled clone hclone hstatus =>
    exact .inr (.inr ⟨clone, hclone, _, .cancelled hstatus, rfl⟩)
  | cloneCancelling now correlationId clone next hclone hstatus hnext =>
    exact .inr (.inr ⟨clone, hclone, _, .cancelling next hstatus hnext, rfl⟩)
  | cloneProjected envelope clone next hnew hclone hid hnext =>
    exact .inr (.inr ⟨clone, hclone, _, .projected envelope next hnext, rfl⟩)
  | scanProjected envelope scan next projection s₁ hvalid hnew hscan hid howner hprojection hnext
      hcoordinated => exact hcoordinated.siteClones_cases.imp_right .inr
  | websiteAdded => exact .inl rfl
  | websiteArchived => exact .inl rfl
  | scanAdded => exact .inl rfl
  | scanCancelling => exact .inl rfl
  | ignored => exact .inl rfl
  | outboxMoved => exact .inl rfl

theorem Write.siteClones_grow (hwrite : Write env consuming delivering s s') (h : Numbered s) :
    Table.Grows SiteCloneRow.Advances s.siteClones s'.siteClones := by
  obtain heq | ⟨clone, -, -, -, -, -, -, heq, -⟩ | ⟨clone, hclone, next, hmove, heq⟩ :=
    hwrite.siteClones_cases
  · rw [heq]
    exact .refl SiteCloneRow.Advances.refl _
  · rw [heq]
    exact .append SiteCloneRow.Advances.refl _ _
  · rw [heq]
    exact grows_replace SiteCloneRow.Advances.refl h.siteClones.1 hclone
      hmove.advances.1.same.id.symm hmove.advances.1

end WebLens.ControlPlane
