import WebLens.SiteClone.Case

/-!
# What each transaction does

One lemma for each transaction of the site clone database says how it moves the clones, with what
the transaction checked on the way and what it returned.
-/

set_option autoImplicit false
set_option relaxedAutoImplicit false

namespace WebLens.SiteClone

open Lib Lib.Utf8 Lib.Transaction
open Capture (Uuid Instant Duration minute)

variable {env : Env} {s s' s₁ : Store} {now : Instant} {id : Uuid}

/-! ### Several statements -/

/-- An update of the clone with an identifier. -/
theorem moves_updateClone {set : Clone → Clone} (hset : ∀ c : Clone, c.SameKeys (set c)) {u : Unit}
    (h : Returns (updateClone id set) s u s') :
    s.Moves (fun c c' ↦ c'.job.id = c.job.id ∧
      if c.job.id = id then c' = set c else c' = c) s' := by
  rw [returns_updateClone] at h
  rw [h.2]
  refine (moves_update hset).mono fun c _ c' heq ↦ ?_
  subst heq
  by_cases hid : c.job.id = id
  · rw [if_pos (Clone.hasId_iff.2 hid), if_pos hid]
    exact ⟨(hset c).id, rfl⟩
  · rw [if_neg (mt Clone.hasId_iff.1 hid), if_neg hid]
    exact ⟨rfl, rfl⟩

/-- An update of the clone with an identifier, and its event. -/
theorem moves_report {set : Clone → Clone} (hset : ∀ c : Clone, c.SameKeys (set c))
    {status : JobStatus} {s₁ : Store} {u v : Unit} (h : Returns (updateClone id set) s u s₁)
    (hevent : Returns (enqueueEvent now id status) s₁ v s') :
    s.Moves (fun c c' ↦ c'.job.id = c.job.id ∧
      if c.job.id = id then ∃ messageId, c' = (set c).withEvent now messageId status
      else c' = c) s' := by
  refine ((moves_updateClone hset h).trans (moves_enqueueEvent hevent)).mono ?_
  rintro c - c' ⟨c₁, -, ⟨hid₁, h₁⟩, h'⟩
  rw [hid₁] at h'
  by_cases hid : c.job.id = id
  · rw [if_pos hid] at h₁ h'
    rw [if_pos hid, h', ← h₁]
    exact ⟨hid₁, _, rfl⟩
  · rw [if_neg hid] at h₁ h'
    rw [if_neg hid, h', ← h₁]
    exact ⟨rfl, rfl⟩

/-! ### Keys that stay -/

theorem Clone.sameKeys_requestCancellation (c : Clone) : c.SameKeys (c.requestCancellation now) :=
  .ofJob rfl

theorem Clone.sameKeys_leasePhase (workerId : Uuid) (lease : Duration) (status : JobStatus)
    (c : Clone) : c.SameKeys (c.leasePhase now workerId lease status) :=
  .ofJob rfl

theorem Clone.sameKeys_finishIngestion (c : Clone) : c.SameKeys (c.finishIngestion now) := by
  unfold finishIngestion
  split_ifs
  · exact .ofJob rfl
  · exact .ofJob rfl

theorem SitePage.reclaim_pageId (maxRetries : ℕ) (page : SitePage) :
    (page.reclaim now maxRetries).pageId = page.pageId := by
  unfold reclaim
  split_ifs <;> rfl

theorem SitePage.fail_pageId (claim : ClaimedSitePage) (code : String) (page : SitePage) :
    (page.fail now claim code).pageId = page.pageId := by
  unfold fail
  split_ifs <;> rfl

theorem Clone.sameKeys_reclaim (keys : List PageKey) (c : Clone) :
    c.SameKeys (c.reclaim now keys) :=
  (Clone.SameKeys.updatePages fun page ↦ page.reclaim_pageId _).trans (.ofJob rfl)

theorem Clone.sameKeys_claimPage (workerId pageId : Uuid) (c : Clone) :
    c.SameKeys (c.claimPage now workerId pageId) :=
  .updatePages fun _ ↦ rfl

theorem Clone.sameKeys_failEmpty (c : Clone) : c.SameKeys (c.failEmpty now) :=
  .ofJob rfl

theorem Clone.sameKeys_publish (claim : ClaimedSitePhase) (artifacts : List SiteArtifactInput)
    (c : Clone) : c.SameKeys (c.publish now claim artifacts) :=
  ⟨rfl, rfl, Table.map_update _ fun _ _ _ ↦ rfl, rfl⟩

theorem Clone.sameKeys_retryPhase (claim : ClaimedSitePhase) (code : String) (c : Clone) :
    c.SameKeys (c.retryPhase now claim code) := by
  unfold retryPhase
  split_ifs
  · exact .ofJob rfl
  · exact .ofJob rfl

theorem Clone.sameKeys_startReconcile (c : Clone) : c.SameKeys (c.startReconcile now) := by
  have h : c.SameKeys (if c.isOverdue now then c.exceedDeadline now else c) := by
    split_ifs
    · exact .ofJob rfl
    · exact .refl c
  unfold startReconcile
  dsimp only
  split_ifs at h ⊢
  all_goals first
    | exact h
    | exact h.trans (.updatePages fun _ ↦ rfl)

/-! ### Commands -/

/-- The database after a command was accepted. -/
def Store.accepted (now : Instant) (hash : ByteString) (envelope : SiteCloneRequestedEnvelope)
    (s : Store) : Store :=
  { s with clones := s.clones ++ [{ job := newSiteJob now hash envelope }] }

/-- A command is a duplicate, or brings a job. -/
theorem acceptRequested_cases {envelope : SiteCloneRequestedEnvelope} {duplicate : Bool}
    (h : Returns (acceptRequested env now envelope) s duplicate s') :
    s' = s ∨ ((∀ c ∈ s.clones, c.job.id ≠ envelope.payload.siteCloneRequestId) ∧
      envelope.payload.policy.isValid = true ∧
        s' = s.accepted now (env.sha256 (env.stringifyCommand (.requested envelope)))
          envelope) := by
  simp only [acceptRequested, returns_bind, returns_get, exists_and_left, exists_eq_left,
    and_assoc] at h
  split at h
  · simp only [returns_bind, returns_require, returns_pure, and_assoc, exists_and_left,
      exists_eq_left, exists_const] at h
    exact .inl h.2.2
  · simp only [returns_bind, returns_require, returns_modify, returns_pure, and_assoc,
      exists_and_left, exists_eq_left, exists_const] at h
    obtain ⟨hfresh, hvalid, -, rfl⟩ := h
    exact .inr ⟨fun c hc ↦ (hfresh c hc).1, hvalid, rfl⟩

/-- A cancellation is a duplicate, comes too late, or is requested of its clone. -/
theorem moves_acceptCancellation (hkeyed : s.Keyed) {envelope : SiteCloneCancelEnvelope}
    {duplicate : Bool} (h : Returns (acceptCancellation env now envelope) s duplicate s') :
    s.Moves (fun c c' ↦ c'.job.id = c.job.id ∧ (c' = c ∨
      c.job.id = envelope.aggregateId ∧ c.job.status.isTerminal = false ∧
        c' = c.requestCancellation now)) s' := by
  simp only [acceptCancellation, returns_bind, returns_get, exists_and_left, exists_eq_left,
    and_assoc] at h
  split at h
  · simp only [returns_bind, returns_require, returns_pure, and_assoc, exists_and_left,
      exists_eq_left, exists_const] at h
    rw [h.2.2]
    exact .refl _ (fun c ↦ ⟨rfl, .inl rfl⟩) s
  · simp only [returns_bind, returns_found, and_assoc, exists_and_left, exists_eq_left] at h
    obtain ⟨c, hfound, h⟩ := h
    have hc : c ∈ s.clones := List.mem_of_find?_eq_some hfound
    have hid : c.job.id = envelope.aggregateId := by
      have := List.find?_some hfound
      rw [Bool.and_eq_true] at this
      exact Clone.hasId_iff.1 this.1
    split_ifs at h with hterminal
    · simp only [returns_bind, returns_modify, returns_pure, exists_const, exists_eq_left] at h
      rw [h.2]
      exact ⟨List.forall₂_same.2 fun c _ ↦ ⟨rfl, .inl rfl⟩, fun h ↦ h.commandInbox⟩
    · simp only [returns_bind, returns_modify, returns_pure, exists_const] at h
      obtain ⟨_, s₁, hupdate, _, rfl, -, rfl⟩ := h
      have hmoves := moves_updateClone Clone.sameKeys_requestCancellation hupdate
      refine ⟨(hmoves.mono ?_).clones, fun h ↦ (hmoves.keyed h).commandInbox⟩
      rintro d hd d' ⟨hid', h⟩
      refine ⟨hid', ?_⟩
      split_ifs at h with hdid
      · obtain rfl := hkeyed.eq hd hc (hdid.trans hid.symm)
        exact .inr ⟨hid, Bool.not_eq_true _ ▸ hterminal, h⟩
      · exact .inl h

/-! ### Ingestion -/

/-- What a transaction that may return a claim does to a clone: the clone that it claims, and the
others. -/
def Claims {α : Type} (result : Option α) (key : α → Uuid) (other : Clone → Clone → Prop)
    (claimed : α → Clone → Clone → Prop) (c c' : Clone) : Prop :=
  c'.job.id = c.job.id ∧ (other c c' ∧ (∀ a, result = some a → key a ≠ c.job.id) ∨
    ∃ a, result = some a ∧ key a = c.job.id ∧ claimed a c c')

theorem SiteJob.phase_id (workerId : Uuid) (job : SiteJob) : (job.phase workerId).id = job.id :=
  rfl

/-- A claim of an ingestion takes a free one. -/
theorem moves_claimIngestion (hkeyed : s.Keyed) {locked : List Uuid} {workerId : Uuid}
    {result : Option ClaimedSitePhase} (h : Returns (claimIngestion now locked workerId) s result s') :
    s.Moves (Claims result ClaimedSitePhase.id (fun c c' ↦ c' = c) fun claim c c' ↦
      c.isIngestible now = true ∧ c' = c.leasePhase now workerId minute .ingesting ∧
        claim = c'.job.phase workerId) s' := by
  simp only [claimIngestion, returns_bind, returns_get, exists_and_left, exists_eq_left,
    and_assoc] at h
  split at h
  · rw [returns_pure] at h
    rw [h.1, h.2]
    exact .refl _ (fun c ↦ ⟨rfl, .inl ⟨rfl, fun a ha ↦ by cases ha⟩⟩) s
  · next c hfirst =>
    simp only [returns_bind, returns_pure] at h
    obtain ⟨u, s₁, hupdate, rfl, rfl⟩ := h
    have hmem := List.mem_filter.1 (Table.firstBy_mem hfirst)
    rw [Bool.and_eq_true] at hmem
    refine (moves_updateClone (Clone.sameKeys_leasePhase workerId minute .ingesting) hupdate).mono ?_
    rintro d hd d' ⟨hid', h⟩
    refine ⟨hid', ?_⟩
    split_ifs at h with hid
    · obtain rfl := hkeyed.eq hd hmem.1 hid
      exact .inr ⟨_, rfl, rfl, hmem.2.1, h, by rw [h]⟩
    · refine .inl ⟨h, ?_⟩
      rintro a ha
      rw [← Option.some.inj ha]
      exact fun heq ↦ hid heq.symm

/-- An update of the clones that it selects. -/
theorem moves_updateClones {sel : Clone → Bool} {set : Clone → Clone}
    (hset : ∀ c : Clone, c.SameKeys (set c)) {rows : ℕ}
    (h : Returns (updateClones sel set) s rows s') :
    s.Moves (fun c c' ↦ c'.job.id = c.job.id ∧ if sel c = true then c' = set c else c' = c) s' := by
  rw [returns_updateClones] at h
  rw [h.2]
  refine (moves_update hset).mono fun c _ c' heq ↦ ?_
  subst heq
  split_ifs with hsel
  · exact ⟨(hset c).id, rfl⟩
  · exact ⟨rfl, rfl⟩

/-- Only the recorded claim is extended. -/
theorem moves_extendPhaseLease {claim : ClaimedSitePhase} {held : Bool}
    (h : Returns (extendPhaseLease now claim) s held s') :
    s.Moves (fun c c' ↦ c'.job.id = c.job.id ∧ (c' = c ∨ c.isPhaseHeldBy claim = true ∧
      (c.job.status = .ingesting ∨ c.job.status = .assembling) ∧ c' = c.extendPhase now)) s' := by
  simp only [extendPhaseLease, returns_bind, returns_pure] at h
  obtain ⟨rows, s₁, hupdate, -, rfl⟩ := h
  have hset : ∀ c : Clone, c.SameKeys (c.extendPhase now) := fun c ↦ .ofJob rfl
  refine (moves_updateClones hset hupdate).mono fun c _ c' h ↦ ⟨h.1, ?_⟩
  obtain ⟨-, h⟩ := h
  split_ifs at h with hsel
  · rw [Bool.and_eq_true, Bool.or_eq_true, decide_eq_true_eq, decide_eq_true_eq] at hsel
    exact .inr ⟨hsel.1, hsel.2, h⟩
  · exact .inl h

theorem Clone.isPhaseHeldBy_iff {claim : ClaimedSitePhase} {c : Clone} :
    c.isPhaseHeldBy claim = true ↔ c.job.id = claim.id ∧
      c.job.phaseLeaseOwner = some claim.leaseOwner ∧
        c.job.phaseLeaseGeneration = claim.leaseGeneration := by
  simp only [isPhaseHeldBy, hasId, Bool.and_eq_true, decide_eq_true_eq, and_assoc]

theorem Clone.isPhaseLeasedBy_iff {phase : JobStatus} {claim : ClaimedSitePhase} {c : Clone} :
    c.isPhaseLeasedBy now phase claim = true ↔ c.job.status = phase ∧
      c.isPhaseHeldBy claim = true ∧ ∃ expiresAt ∈ c.job.phaseLeaseExpiresAt, now < expiresAt := by
  simp only [isPhaseLeasedBy, Bool.and_eq_true, decide_eq_true_eq, and_assoc]

theorem SitePage.pageId_of_conflicts {target : SiteTargetInput} {pages : List SitePage}
    (h : pages.any (SitePage.conflicts target) ≠ true) :
    ∀ page ∈ pages, page.pageId ≠ target.pageId := by
  intro page hpage heq
  refine h (List.any_eq_true.2 ⟨page, hpage, ?_⟩)
  simp [SitePage.conflicts, heq]

/-- Targets are inserted with distinct keys. -/
theorem nodup_insertTarget {targets : List SiteTargetInput} {pages : List SitePage}
    (h : (pages.map SitePage.pageId).Nodup) :
    ((targets.foldl (insertTarget now) pages).map SitePage.pageId).Nodup := by
  induction targets generalizing pages with
  | nil => exact h
  | cons target targets ih =>
    rw [List.foldl_cons]
    apply ih
    unfold insertTarget
    split_ifs with hconflict
    · exact h
    · exact Table.nodup_map_concat h fun page hpage ↦
        SitePage.pageId_of_conflicts hconflict page hpage

/-- Targets are added under the lease of the ingestion only. -/
theorem moves_addTargets (hkeyed : s.Keyed) {claim : ClaimedSitePhase}
    {targets : List SiteTargetInput} {inserted : ℕ}
    (h : Returns (addTargets now claim targets) s inserted s') :
    s.Moves (fun c c' ↦ c'.job.id = c.job.id ∧ (c' = c ∨
      c.isPhaseLeasedBy now .ingesting claim = true ∧ c' = c.addTargets now targets)) s' := by
  unfold addTargets at h
  split_ifs at h with hnil
  · rw [returns_pure] at h
    rw [h.2]
    exact .refl _ (fun c ↦ ⟨rfl, .inl rfl⟩) s
  simp only [returns_bind, returns_get, returns_found, returns_updateClone, returns_require,
    returns_pure, exists_and_left, exists_eq_left, and_assoc] at h
  obtain ⟨c, hfound, -, u, -, -, -, rfl⟩ := h
  have hc : c ∈ s.clones := List.mem_of_find?_eq_some hfound
  have hlease : c.isPhaseLeasedBy now .ingesting claim = true := List.find?_some hfound
  have hid := (Clone.isPhaseHeldBy_iff.1 (Clone.isPhaseLeasedBy_iff.1 hlease).2.1).1
  have hmem : ∀ d' ∈ Table.update (Clone.hasId claim.id) (Clone.addTargets now targets) s.clones,
      d' ∈ s.clones ∨ d' = c.addTargets now targets := by
    intro d' hd'
    obtain ⟨d, hd, rfl⟩ := Table.mem_update.1 hd'
    split_ifs with hsel
    · rw [hkeyed.eq hd hc ((Clone.hasId_iff.1 hsel).trans hid.symm)]
      exact .inr rfl
    · exact .inl hd
  have hmem' : ∀ d' ∈ Table.update (Clone.hasId claim.id) (Clone.addTargets now targets) s.clones,
      ∃ d ∈ s.clones, d'.artifacts = d.artifacts ∧ d'.events = d.events := by
    intro d' hd'
    rcases hmem d' hd' with hd | rfl
    · exact ⟨d', hd, rfl, rfl⟩
    · exact ⟨c, hc, rfl, rfl⟩
  refine ⟨?_, fun _ ↦ ?_⟩
  · refine List.forall₂_map_right_iff.2 (List.forall₂_same.2 fun d hd ↦ ?_)
    split_ifs with hsel
    · obtain rfl := hkeyed.eq hd hc ((Clone.hasId_iff.1 hsel).trans hid.symm)
      exact ⟨rfl, .inr ⟨hlease, rfl⟩⟩
    · exact ⟨rfl, .inl rfl⟩
  · constructor
    · have hids : (Table.update (Clone.hasId claim.id) (Clone.addTargets now targets)
          s.clones).map (fun c ↦ c.job.id) = s.clones.map fun c ↦ c.job.id :=
        Table.map_update _ fun c _ _ ↦ rfl
      exact hids ▸ hkeyed.ids
    · intro d' hd'
      rcases hmem d' hd' with hd | rfl
      · exact hkeyed.pages d' hd
      · exact nodup_insertTarget (hkeyed.pages c hc)
    · intro d' hd'
      obtain ⟨d, hd, heq, -⟩ := hmem' d' hd'
      exact heq ▸ hkeyed.artifacts d hd
    · intro d' hd' row hrow
      obtain ⟨d, hd, heq, -⟩ := hmem' d' hd'
      exact hkeyed.artifacts_lt d hd row (heq ▸ hrow)
    · intro d' hd' event hevent
      obtain ⟨d, hd, -, heq⟩ := hmem' d' hd'
      exact hkeyed.events_lt d hd event (heq ▸ hevent)
    · intro d' hd' e' he' event hevent other hother
      obtain ⟨d, hd, -, hdeq⟩ := hmem' d' hd'
      obtain ⟨e, he, -, heeq⟩ := hmem' e' he'
      exact hkeyed.events d hd e he event (hdeq ▸ hevent) other (heeq ▸ hother)

/-- A clone is found by its identifier. -/
theorem Store.Keyed.find?_eq (hkeyed : s.Keyed) {c : Clone} (hc : c ∈ s.clones)
    (hid : c.job.id = id) : s.clones.find? (Clone.hasId id) = some c := by
  subst hid
  exact Table.find?_key hkeyed.ids hc

/-- An ingestion is finished by its recorded claim only. -/
theorem moves_finishIngestion (hkeyed : s.Keyed) {claim : ClaimedSitePhase} {u : Unit}
    (h : Returns (finishIngestion now claim) s u s') :
    s.Moves (fun c c' ↦ c'.job.id = c.job.id ∧ (c' = c ∨
      c.isPhaseHeldBy claim = true ∧ c.job.status = .ingesting ∧ ∃ messageId,
        c' = (c.finishIngestion now).withEvent now messageId c.ingestedStatus)) s' := by
  simp only [finishIngestion, returns_bind, returns_get, returns_require, exists_and_left,
    exists_eq_left, and_assoc] at h
  obtain ⟨rows, s₁, hupdate, hrows, -, hevent⟩ := h
  have hrows' := (returns_updateClones.1 hupdate).1
  rw [hrows'] at hrows
  obtain ⟨c, hc, hsel⟩ := List.countP_pos_iff.1 (Nat.pos_of_ne_zero hrows)
  rw [Bool.and_eq_true, decide_eq_true_eq] at hsel
  have hid := (Clone.isPhaseHeldBy_iff.1 hsel.1).1
  have hfound := hkeyed.find?_eq hc hid
  simp only [hfound, Option.map_some, Option.getD_some] at hupdate hevent
  have hset : ∀ d : Clone, d.SameKeys ((if c.pages.length = 0 then Clone.finishEmpty now
      else Clone.finishTargets now c.pages.length) d) := by
    intro d
    split_ifs
    · exact .ofJob rfl
    · exact .ofJob rfl
  refine ((moves_updateClones hset hupdate).trans (moves_enqueueEvent hevent)).mono ?_
  rintro d hd d' ⟨d₁, -, ⟨hid₁, h₁⟩, h'⟩
  by_cases hdid : d.job.id = claim.id
  · -- The clone with the identifier is the one that was updated.
    obtain rfl := hkeyed.eq hd hc (hdid.trans hid.symm)
    rw [if_pos (by rw [Bool.and_eq_true, decide_eq_true_eq]; exact hsel)] at h₁
    rw [hid₁, if_pos hdid] at h'
    refine ⟨h' ▸ hid₁, .inr ⟨hsel.1, hsel.2, s₁.nextUuid, ?_⟩⟩
    rw [h', h₁, Clone.finishIngestion, Clone.ingestedStatus]
    split_ifs <;> rfl
  · have hheld : ¬ (d.isPhaseHeldBy claim && decide (d.job.status = .ingesting)) = true := by
      rw [Bool.and_eq_true]
      exact fun h ↦ hdid (Clone.isPhaseHeldBy_iff.1 h.1).1
    rw [if_neg hheld] at h₁
    rw [hid₁, if_neg hdid] at h'
    exact ⟨h' ▸ hid₁, .inl (h'.trans h₁)⟩

/-! ### Pages -/

/-- The page that a claim takes is claimable. -/
theorem claimablePage_mem {locked : List PageKey} {clones : List Clone} {c : Clone}
    {page : SitePage} (h : claimablePage now locked clones = some (c, page)) :
    c ∈ clones ∧ page ∈ c.pages ∧ c.isClaimable now page = true := by
  obtain ⟨d, hd, hentry⟩ := List.mem_flatMap.1 (Table.firstBy_mem h)
  obtain ⟨other, hother, heq⟩ := List.mem_map.1 hentry
  obtain ⟨rfl, rfl⟩ := Prod.mk.inj heq
  have hmem := List.mem_filter.1 (List.mem_filter.1 hother).1
  exact ⟨hd, hmem.1, hmem.2⟩

/-- A claim of a page reclaims expired pages, and may take one that waits. -/
theorem moves_claimPage (hkeyed : s.Keyed) {locks : PageLocks} {workerId : Uuid}
    {result : Option ClaimedSitePage} (h : Returns (claimPage now locks workerId) s result s') :
    s.Moves (Claims result ClaimedSitePage.jobId
      (fun c c' ↦ c' = c ∨ ∃ keys, c' = c.reclaim now keys) fun claim c c' ↦
        ∃ d page, (d = c ∨ ∃ keys, d = c.reclaim now keys) ∧ page ∈ d.pages ∧
          d.isClaimable now page = true ∧ c' = d.claimPage now workerId page.pageId ∧
            claim = d.claimedPage workerId page) s' := by
  simp only [claimPage, returns_bind, returns_get, exists_and_left, exists_eq_left,
    and_assoc] at h
  obtain ⟨rows, s₁, hreclaim, h⟩ := h
  have hreclaimed := (moves_updateClones (Clone.sameKeys_reclaim _) hreclaim).mono
    (S := fun c c' ↦ c'.job.id = c.job.id ∧ (c' = c ∨ ∃ keys, c' = c.reclaim now keys)) (by
      rintro c - c' ⟨hid, h⟩
      refine ⟨hid, ?_⟩
      split_ifs at h
      · exact .inr ⟨_, h⟩
      · exact .inl h)
  have hkeyed₁ := hreclaimed.keyed hkeyed
  split at h
  · rw [returns_pure] at h
    rw [h.1, h.2]
    exact hreclaimed.mono fun c _ c' h ↦ ⟨h.1, .inl ⟨h.2, fun a ha ↦ by cases ha⟩⟩
  · next d page hclaimable =>
    simp only [returns_bind, returns_pure] at h
    obtain ⟨u, s₂, hupdate, rfl, rfl⟩ := h
    obtain ⟨hd, hpage, hfree⟩ := claimablePage_mem hclaimable
    refine (hreclaimed.trans
      (moves_updateClone (Clone.sameKeys_claimPage workerId page.pageId) hupdate)).mono ?_
    rintro c - c' ⟨c₁, hc₁, ⟨hid₁, h₁⟩, hid', h'⟩
    refine ⟨hid'.trans hid₁, ?_⟩
    split_ifs at h' with hid
    · -- The page is one of this clone as it is after the reclaim.
      obtain rfl := hkeyed₁.eq hc₁ hd hid
      exact .inr ⟨_, rfl, hid₁, c₁, page, h₁, hpage, hfree, h', rfl⟩
    · refine .inl ⟨?_, ?_⟩
      · rw [h']
        exact h₁
      · rintro a ha heq
        rw [← Option.some.inj ha] at heq
        exact hid (hid₁.trans heq.symm)

theorem Clone.isPageHeldBy_iff {claim : ClaimedSitePage} {c : Clone} :
    c.isPageHeldBy claim = true ↔
      c.job.id = claim.jobId ∧ ∃ page ∈ c.pages, page.isHeldBy claim = true := by
  rw [isPageHeldBy, Bool.and_eq_true, hasId_iff, List.any_eq_true]

theorem Clone.sameKeys_updateHeld (claim : ClaimedSitePage) (set : SitePage → SitePage)
    (hset : ∀ page, (set page).pageId = page.pageId) (c : Clone) :
    c.SameKeys (c.updateHeld claim set) :=
  .updatePages hset

/-- Only the recorded claim of a page is extended. -/
theorem moves_extendPageLease {claim : ClaimedSitePage} {held : Bool}
    (h : Returns (extendPageLease now claim) s held s') :
    s.Moves (fun c c' ↦ c'.job.id = c.job.id ∧ (c' = c ∨ c.isPageHeldBy claim = true ∧
      c' = c.updateHeld claim (SitePage.extend now))) s' := by
  simp only [extendPageLease, returns_bind, returns_pure] at h
  obtain ⟨rows, s₁, hupdate, -, rfl⟩ := h
  have hset := Clone.sameKeys_updateHeld claim (SitePage.extend now) fun _ ↦ rfl
  refine (moves_updateClones hset hupdate).mono fun c _ c' h ↦ ⟨h.1, ?_⟩
  obtain ⟨-, h⟩ := h
  split_ifs at h with hsel
  · exact .inr ⟨hsel, h⟩
  · exact .inl h

theorem Clone.sameKeys_increment (succeeded : Bool) (inputBytes : ℕ) (c : Clone) :
    c.SameKeys (c.increment now succeeded inputBytes) :=
  .ofJob rfl

/-- The counters of the job go up, and every hundredth page is reported. -/
theorem moves_incrementJob (hkeyed : s.Keyed) {succeeded : Bool} {inputBytes : ℕ} {u : Unit}
    (h : Returns (incrementJob now id succeeded inputBytes) s u s') :
    s.Moves (fun c c' ↦ c'.job.id = c.job.id ∧ if c.job.id = id then
      ∃ messageId, c' = c.incrementJob now messageId succeeded inputBytes else c' = c) s' := by
  simp only [incrementJob, returns_bind, returns_get, exists_and_left, exists_eq_left,
    and_assoc] at h
  obtain ⟨rows, s₁, hupdate, h⟩ := h
  have hmoves := moves_updateClones (Clone.sameKeys_increment succeeded inputBytes) hupdate
  have hkeyed₁ := hmoves.keyed hkeyed
  have hprocessed : ∀ c ∈ s₁.clones, c.job.id = id → ((s₁.clones.find? (Clone.hasId id)).map
      fun c ↦ c.job.processedCount).getD 0 = c.job.processedCount := by
    intro c hc hid
    rw [hkeyed₁.find?_eq hc hid]
    rfl
  split_ifs at h with hreport
  · refine (hmoves.trans (moves_enqueueEvent h)).mono ?_
    rintro c - c' ⟨c₁, hc₁, ⟨hid₁, h₁⟩, h'⟩
    rw [hid₁] at h'
    by_cases hid : c.job.id = id
    · rw [if_pos (Clone.hasId_iff.2 hid)] at h₁
      rw [if_pos hid] at h' ⊢
      rw [hprocessed c₁ hc₁ (hid₁.trans hid), h₁] at hreport
      refine ⟨h' ▸ hid₁, s₁.nextUuid, ?_⟩
      rw [Clone.incrementJob, if_pos hreport, h', h₁]
    · rw [if_neg (mt Clone.hasId_iff.1 hid)] at h₁
      rw [if_neg hid] at h' ⊢
      exact ⟨h' ▸ hid₁, h'.trans h₁⟩
  · rw [returns_pure] at h
    rw [h.2]
    refine hmoves.exists_mem.mono ?_
    rintro c - c' ⟨hc', hid', h'⟩
    refine ⟨hid', ?_⟩
    by_cases hid : c.job.id = id
    · rw [if_pos (Clone.hasId_iff.2 hid)] at h'
      rw [hprocessed c' hc' (hid'.trans hid), h'] at hreport
      rw [if_pos hid]
      refine ⟨0, ?_⟩
      rw [Clone.incrementJob, if_neg hreport, h']
    · rw [if_neg (mt Clone.hasId_iff.1 hid)] at h'
      rw [if_neg hid]
      exact h'

/-- A page that is held ends, and the counters go up. -/
theorem moves_endPage (hkeyed : s.Keyed) {claim : ClaimedSitePage} (set : SitePage → SitePage)
    (hset : ∀ page, (set page).pageId = page.pageId) {succeeded : Bool} {inputBytes rows : ℕ}
    {u : Unit} {d : Clone} (hd : d ∈ s.clones) (hheld : d.isPageHeldBy claim = true)
    (hupdate : Returns (updateClones (Clone.isPageHeldBy claim) (Clone.updateHeld claim set)) s rows
      s₁)
    (hincrement : Returns (incrementJob now claim.jobId succeeded inputBytes) s₁ u s') :
    s.Moves (fun c c' ↦ c'.job.id = c.job.id ∧ (c' = c ∨ c = d ∧ ∃ messageId,
      c' = (c.updateHeld claim set).incrementJob now messageId succeeded inputBytes)) s' := by
  have hmoves := moves_updateClones (Clone.sameKeys_updateHeld claim set hset) hupdate
  refine (hmoves.trans (moves_incrementJob (hmoves.keyed hkeyed) hincrement)).mono ?_
  rintro c hc c' ⟨c₁, -, ⟨hid₁, h₁⟩, hid', h'⟩
  refine ⟨hid'.trans hid₁, ?_⟩
  rw [hid₁] at h'
  by_cases hid : c.job.id = claim.jobId
  · obtain rfl := hkeyed.eq hc hd (hid.trans (Clone.isPageHeldBy_iff.1 hheld).1.symm)
    rw [if_pos hheld] at h₁
    rw [if_pos hid, h₁] at h'
    exact .inr ⟨rfl, h'⟩
  · have hnot : ¬ c.isPageHeldBy claim = true := fun h ↦ hid (Clone.isPageHeldBy_iff.1 h).1
    rw [if_neg hnot] at h₁
    rw [if_neg hid] at h'
    exact .inl (h'.trans h₁)

/-- A page is completed by its recorded claim only. -/
theorem moves_completePage (hkeyed : s.Keyed) {claim : ClaimedSitePage} {bundle : StoredObject}
    {inputBytes : ℕ} {accepted : Bool}
    (h : Returns (completePage now claim bundle inputBytes) s accepted s') :
    s.Moves (fun c c' ↦ c'.job.id = c.job.id ∧ (c' = c ∨ c.isPageHeldBy claim = true ∧
      (c.job.status = .cancelRequested ∧
          c' = c.updateHeld claim (SitePage.finish .cancelled "CANCELLED") ∨
        c.job.status ≠ .cancelRequested ∧ ∃ messageId,
          (c.job.policy.maxInputBytes < c.job.inputBytes + inputBytes ∧
              c' = (c.updateHeld claim
                (SitePage.finish .failed "SITE_INPUT_BUDGET_EXCEEDED")).incrementJob now messageId
                  false 0 ∨
            c.job.inputBytes + inputBytes ≤ c.job.policy.maxInputBytes ∧
              c' = (c.updateHeld claim (SitePage.succeed now bundle inputBytes)).incrementJob now
                messageId true inputBytes)))) s' := by
  simp only [completePage, returns_bind, returns_get, returns_require, returns_selectClone,
    exists_and_left, exists_eq_left, exists_const, and_assoc] at h
  obtain ⟨hany, d, hfound, h⟩ := h
  obtain ⟨hd, hdid⟩ := find?_hasId hfound
  -- A clone with a page that is held is the one that was found.
  have heq : ∀ c ∈ s.clones, c.isPageHeldBy claim = true → c = d := fun c hc hheld ↦
    hkeyed.eq hc hd ((Clone.isPageHeldBy_iff.1 hheld).1.trans hdid.symm)
  have hheld : d.isPageHeldBy claim = true := by
    obtain ⟨c, hc, hheld⟩ := List.any_eq_true.1 hany
    exact heq c hc hheld ▸ hheld
  split_ifs at h with hstatus hbudget
  · simp only [returns_bind, returns_pure] at h
    obtain ⟨rows, s₁, hupdate, -, rfl⟩ := h
    refine (moves_updateClones (Clone.sameKeys_updateHeld claim
      (SitePage.finish .cancelled "CANCELLED") fun _ ↦ rfl) hupdate).mono ?_
    rintro c hc c' ⟨hid, h⟩
    refine ⟨hid, ?_⟩
    split_ifs at h with hheld
    · obtain rfl := heq c hc hheld
      exact .inr ⟨hheld, .inl ⟨hstatus, h⟩⟩
    · exact .inl h
  · simp only [returns_bind, returns_pure] at h
    obtain ⟨rows, s₁, hupdate, u, s₂, hincrement, -, rfl⟩ := h
    refine (moves_endPage hkeyed (SitePage.finish .failed "SITE_INPUT_BUDGET_EXCEEDED")
      (fun _ ↦ rfl) hd hheld hupdate hincrement).mono ?_
    rintro c - c' ⟨hid, h⟩
    refine ⟨hid, h.imp id ?_⟩
    rintro ⟨rfl, messageId, h⟩
    exact ⟨hheld, .inr ⟨hstatus, messageId, .inl ⟨hbudget, h⟩⟩⟩
  · simp only [returns_bind, returns_require, returns_pure] at h
    obtain ⟨u, s₁, ⟨-, rfl⟩, rows, s₂, hupdate, v, s₃, hincrement, -, rfl⟩ := h
    refine (moves_endPage hkeyed (SitePage.succeed now bundle inputBytes) (fun _ ↦ rfl) hd hheld
      hupdate hincrement).mono ?_
    rintro c - c' ⟨hid, h⟩
    refine ⟨hid, h.imp id ?_⟩
    rintro ⟨rfl, messageId, h⟩
    exact ⟨hheld, .inr ⟨hstatus, messageId, .inr ⟨Nat.le_of_not_lt hbudget, h⟩⟩⟩

/-- A page fails by its recorded claim only. -/
theorem moves_failPage (hkeyed : s.Keyed) {claim : ClaimedSitePage} {code : String} {u : Unit}
    (h : Returns (failPage now claim code) s u s') :
    s.Moves (fun c c' ↦ c'.job.id = c.job.id ∧ (c' = c ∨ c.isPageHeldBy claim = true ∧
      ∃ messageId, c' = c.failPage now messageId claim code)) s' := by
  simp only [failPage, returns_bind] at h
  obtain ⟨rows, s₁, hupdate, h⟩ := h
  have hset : ∀ page, (SitePage.fail now claim code page).pageId = page.pageId :=
    fun page ↦ page.fail_pageId claim code
  have hmoves := moves_updateClones (Clone.sameKeys_updateHeld claim _ hset) hupdate
  split_ifs at h with hreport
  · rw [(returns_updateClones.1 hupdate).1] at hreport
    obtain ⟨d, hd, hheld⟩ := List.countP_pos_iff.1 (Nat.pos_of_ne_zero hreport.1)
    refine (moves_endPage hkeyed _ hset hd hheld hupdate h).mono ?_
    rintro c - c' ⟨hid, h⟩
    refine ⟨hid, h.imp id ?_⟩
    rintro ⟨rfl, messageId, h⟩
    refine ⟨hheld, messageId, ?_⟩
    rw [Clone.failPage, if_neg hreport.2, h]
  · rw [returns_pure] at h
    rw [h.2]
    refine hmoves.mono ?_
    rintro c hc c' ⟨hid, h⟩
    refine ⟨hid, ?_⟩
    split_ifs at h with hheld
    · refine .inr ⟨hheld, 0, ?_⟩
      have hretry : claim.attemptCount < claim.maxRetries := by
        by_contra hretry
        refine hreport ⟨?_, hretry⟩
        rw [(returns_updateClones.1 hupdate).1]
        exact Nat.pos_iff_ne_zero.1 (List.countP_pos_iff.2 ⟨c, hc, hheld⟩)
      rw [Clone.failPage, if_pos hretry, h]
    · exact .inl h

/-! ### Assembly -/

/-- The clones without anything to assemble fail. -/
theorem moves_finalizeEmptyJobs (hkeyed : s.Keyed) {locked : List Uuid} {u : Unit}
    (h : Returns (finalizeEmptyJobs now locked) s u s') :
    s.Moves (fun c c' ↦ c'.job.id = c.job.id ∧ (c' = c ∨ c.isEmpty = true ∧
      ∃ messageId, c' = (c.failEmpty now).withEvent now messageId .failed)) s' := by
  simp only [finalizeEmptyJobs, returns_bind, returns_get, exists_and_left, exists_eq_left,
    and_assoc] at h
  have hnodup : ((s.clones.filter fun c ↦ c.isEmpty && decide (c.job.id ∉ locked)).map
      fun c ↦ c.job.id).Nodup :=
    hkeyed.ids.sublist (List.Sublist.map _ List.filter_sublist)
  refine (moves_forM (fun c c' ↦ ∃ messageId, c' = (c.failEmpty now).withEvent now messageId .failed)
    ?_ hnodup hkeyed h).mono ?_
  · rintro id s s' u - hbody
    simp only [finalizeEmptyJob, returns_bind] at hbody
    obtain ⟨v, s₁, hupdate, hevent⟩ := hbody
    exact moves_report Clone.sameKeys_failEmpty hupdate hevent
  · rintro c hc c' ⟨hid, h⟩
    refine ⟨hid, ?_⟩
    split_ifs at h with hmem
    · obtain ⟨d, hd, hdid⟩ := List.mem_map.1 hmem
      rw [List.mem_filter, Bool.and_eq_true] at hd
      obtain rfl := hkeyed.eq hd.1 hc hdid
      exact .inr ⟨hd.2.1, h⟩
    · exact .inl h

theorem Clone.isAssemblable_iff {c : Clone} :
    c.isAssemblable now = true ↔ (c.job.status = .running ∨ c.job.status = .assembling) ∧
      c.job.ingestionFinishedAt.isSome = true ∧ c.job.isPhaseFree now = true ∧
        0 < c.job.succeededCount ∧ c.hasActivePage = false := by
  simp only [isAssemblable, Bool.and_eq_true, Bool.or_eq_true, decide_eq_true_eq,
    Bool.not_eq_true', and_assoc]

/-- A claim of an assembly fails the clones without anything to assemble, and may take a free one
that has something. -/
theorem moves_claimAssembly (hkeyed : s.Keyed) {locks : AssemblyLocks} {workerId : Uuid}
    {result : Option ClaimedSitePhase}
    (h : Returns (claimAssembly now locks workerId) s result s') :
    s.Moves (Claims result ClaimedSitePhase.id
      (fun c c' ↦ c' = c ∨ c.isEmpty = true ∧
        ∃ messageId, c' = (c.failEmpty now).withEvent now messageId .failed)
      fun claim c c' ↦ c.isAssemblable now = true ∧ ∃ messageId,
        c' = (c.leasePhase now workerId (5 * minute) .assembling).withEvent now messageId
          .assembling ∧
        claim = (c.leasePhase now workerId (5 * minute) .assembling).job.phase workerId) s' := by
  simp only [claimAssembly, returns_bind, returns_get, exists_and_left, exists_eq_left,
    and_assoc] at h
  obtain ⟨u, s₁, hfinalize, h⟩ := h
  have hfinalized := moves_finalizeEmptyJobs hkeyed hfinalize
  have hkeyed₁ := hfinalized.keyed hkeyed
  split at h
  · rw [returns_pure] at h
    rw [h.1, h.2]
    exact hfinalized.mono fun c _ c' h ↦ ⟨h.1, .inl ⟨h.2, fun a ha ↦ by cases ha⟩⟩
  · next d hfirst =>
    simp only [returns_bind, returns_pure] at h
    obtain ⟨v, s₂, hupdate, w, s₃, hevent, rfl, rfl⟩ := h
    have hmem := List.mem_filter.1 (Table.firstBy_mem hfirst)
    rw [Bool.and_eq_true] at hmem
    refine (hfinalized.trans (moves_report
      (Clone.sameKeys_leasePhase workerId (5 * minute) .assembling) hupdate hevent)).mono ?_
    rintro c - c' ⟨c₁, hc₁, ⟨hid₁, h₁⟩, hid', h'⟩
    refine ⟨hid'.trans hid₁, ?_⟩
    split_ifs at h' with hid
    · obtain rfl := hkeyed₁.eq hc₁ hmem.1 hid
      obtain ⟨messageId, h'⟩ := h'
      rcases h₁ with rfl | ⟨-, _, rfl⟩
      · exact .inr ⟨_, rfl, rfl, hmem.2.1, messageId, h', rfl⟩
      · -- A clone that has failed cannot be assembled.
        have hstatus := (Clone.isAssemblable_iff.1 hmem.2.1).1
        rcases hstatus with hstatus | hstatus <;> cases hstatus
    · refine .inl ⟨?_, ?_⟩
      · rw [h']
        exact h₁
      · rintro a ha heq
        rw [← Option.some.inj ha] at heq
        exact hid (hid₁.trans heq.symm)

/-- What staging some artifacts for a claim adds to a clone. -/
def AddsRows (now : Instant) (claim : ClaimedSitePhase) (artifacts : List SiteArtifactInput)
    (c c' : Clone) : Prop :=
  ∃ added, c' = { c with artifacts := c.artifacts ++ added } ∧
    (∀ row ∈ added, ∃ id, ∃ artifact ∈ artifacts, row = stagedArtifact now id claim artifact) ∧
    (added.map fun row ↦ row.object.key).Nodup ∧
    ∀ row ∈ c.artifacts, ∀ other ∈ added, row.object.key ≠ other.object.key

theorem AddsRows.refl (claim : ClaimedSitePhase) (artifacts : List SiteArtifactInput) (c : Clone) :
    AddsRows now claim artifacts c c :=
  ⟨[], by rw [List.append_nil], by simp, List.nodup_nil, by simp⟩

/-- Rows are added one after the other. -/
theorem AddsRows.trans {claim : ClaimedSitePhase} {artifact : SiteArtifactInput}
    {artifacts : List SiteArtifactInput} {c₁ c₂ c₃ : Clone}
    (h₁ : AddsRows now claim [artifact] c₁ c₂) (h₂ : AddsRows now claim artifacts c₂ c₃) :
    AddsRows now claim (artifact :: artifacts) c₁ c₃ := by
  obtain ⟨first, rfl, hfirst, hfirstNodup, hfirstNew⟩ := h₁
  obtain ⟨second, rfl, hsecond, hsecondNodup, hsecondNew⟩ := h₂
  refine ⟨first ++ second, by rw [List.append_assoc], ?_, ?_, ?_⟩
  · intro row hrow
    rcases List.mem_append.1 hrow with hrow | hrow
    · obtain ⟨id, artifact', hartifact, rfl⟩ := hfirst row hrow
      rw [List.mem_singleton] at hartifact
      exact ⟨id, artifact', List.mem_cons.2 (.inl hartifact), rfl⟩
    · obtain ⟨id, artifact', hartifact, rfl⟩ := hsecond row hrow
      exact ⟨id, artifact', List.mem_cons_of_mem _ hartifact, rfl⟩
  · rw [List.map_append, List.nodup_append]
    refine ⟨hfirstNodup, hsecondNodup, ?_⟩
    intro key hkey key' hkey'
    obtain ⟨row, hrow, rfl⟩ := List.mem_map.1 hkey
    obtain ⟨other, hother, rfl⟩ := List.mem_map.1 hkey'
    exact hsecondNew row (List.mem_append_right _ hrow) other hother
  · intro row hrow other hother
    rcases List.mem_append.1 hother with hother | hother
    · exact hfirstNew row hrow other hother
    · exact hsecondNew row (List.mem_append_left _ hrow) other hother

/-- An artifact is there already, or is inserted under a new key. -/
theorem moves_insertArtifact (hkeyed : s.Keyed) {claim : ClaimedSitePhase}
    {artifact : SiteArtifactInput} {u : Unit} (h : Returns (insertArtifact now claim artifact) s u s') :
    s.Moves (fun c c' ↦ c'.job.id = c.job.id ∧ if c.job.id = claim.id then
      AddsRows now claim [artifact] c c' else c' = c) s' := by
  simp only [insertArtifact, returns_bind, returns_newUuid, returns_selectClone, exists_and_left,
    exists_eq_left, and_assoc] at h
  obtain ⟨d, hfound, h⟩ := h
  obtain ⟨hd, hdid⟩ := find?_hasId hfound
  split_ifs at h with hthere
  · rw [returns_pure] at h
    rw [h.2]
    refine ⟨List.forall₂_same.2 fun c _ ↦ ⟨rfl, ?_⟩, fun h ↦ h.nextUuid (Nat.le_succ _)⟩
    split_ifs
    · exact .refl claim _ c
    · rfl
  · simp only [returns_bind, returns_get, returns_require, returns_updateClone, exists_and_left,
      exists_eq_left, exists_const, and_assoc] at h
    obtain ⟨hnew, -, rfl⟩ := h
    have hmem : ∀ c' ∈ Table.update (Clone.hasId claim.id) (fun c ↦ { c with
        artifacts := c.artifacts ++ [stagedArtifact now s.nextUuid claim artifact] }) s.clones,
        ∃ c ∈ s.clones, c'.pages = c.pages ∧ c'.events = c.events ∧
          (c'.artifacts = c.artifacts ∨
            c'.artifacts = c.artifacts ++ [stagedArtifact now s.nextUuid claim artifact]) := by
      intro c' hc'
      obtain ⟨c, hc, rfl⟩ := Table.mem_update.1 hc'
      refine ⟨c, hc, ?_⟩
      split_ifs
      · exact ⟨rfl, rfl, .inr rfl⟩
      · exact ⟨rfl, rfl, .inl rfl⟩
    refine ⟨?_, fun _ ↦ ?_⟩
    · refine List.forall₂_map_right_iff.2 (List.forall₂_same.2 fun c hc ↦ ?_)
      by_cases hid : c.job.id = claim.id
      · rw [if_pos (Clone.hasId_iff.2 hid), if_pos hid]
        refine ⟨rfl, [_], rfl, ?_, List.nodup_singleton _, ?_⟩
        · intro row hrow
          exact ⟨_, artifact, List.mem_singleton_self _, List.mem_singleton.1 hrow⟩
        · intro row hrow other hother
          rw [List.mem_singleton.1 hother]
          exact hnew c hc row hrow
      · rw [if_neg (mt Clone.hasId_iff.1 hid), if_neg hid]
        exact ⟨rfl, rfl⟩
    · constructor
      · have hids : (Table.update (Clone.hasId claim.id) (fun c ↦ { c with
            artifacts := c.artifacts ++ [stagedArtifact now s.nextUuid claim artifact] })
            s.clones).map (fun c ↦ c.job.id) = s.clones.map fun c ↦ c.job.id :=
          Table.map_update _ fun c _ _ ↦ rfl
        exact hids ▸ hkeyed.ids
      · intro c' hc'
        obtain ⟨c, hc, heq, -⟩ := hmem c' hc'
        exact heq ▸ hkeyed.pages c hc
      · intro c' hc'
        obtain ⟨c, hc, -, -, heq | heq⟩ := hmem c' hc'
        · exact heq ▸ hkeyed.artifacts c hc
        · rw [heq]
          exact Table.nodup_map_concat (hkeyed.artifacts c hc) fun row hrow ↦
            (hkeyed.artifacts_lt c hc row hrow).ne
      · intro c' hc' row hrow
        obtain ⟨c, hc, -, -, heq | heq⟩ := hmem c' hc'
        · exact (hkeyed.artifacts_lt c hc row (heq ▸ hrow)).trans (Nat.lt_succ_self _)
        · rw [heq, List.mem_append, List.mem_singleton] at hrow
          rcases hrow with hrow | rfl
          · exact (hkeyed.artifacts_lt c hc row hrow).trans (Nat.lt_succ_self _)
          · exact Nat.lt_succ_self _
      · intro c' hc' event hevent
        obtain ⟨c, hc, -, heq, -⟩ := hmem c' hc'
        exact (hkeyed.events_lt c hc event (heq ▸ hevent)).trans (Nat.lt_succ_self _)
      · intro c' hc' e' he' event hevent other hother
        obtain ⟨c, hc, -, hceq, -⟩ := hmem c' hc'
        obtain ⟨e, he, -, heeq, -⟩ := hmem e' he'
        exact hkeyed.events c hc e he event (hceq ▸ hevent) other (heeq ▸ hother)

/-- Artifacts are inserted one after the other. -/
theorem moves_insertArtifacts (hkeyed : s.Keyed) {claim : ClaimedSitePhase}
    {artifacts : List SiteArtifactInput} {u : Unit}
    (h : Returns (artifacts.forM (insertArtifact now claim)) s u s') :
    s.Moves (fun c c' ↦ c'.job.id = c.job.id ∧ if c.job.id = claim.id then
      AddsRows now claim artifacts c c' else c' = c) s' := by
  induction artifacts generalizing s with
  | nil =>
    simp only [List.forM_eq_forM, List.forM_nil, returns_pure] at h
    rw [h.2]
    refine .refl _ (fun c ↦ ⟨rfl, ?_⟩) s
    split_ifs
    · exact .refl claim _ c
    · rfl
  | cons artifact artifacts ih =>
    simp only [List.forM_eq_forM, List.forM_cons, returns_bind] at h
    obtain ⟨_, s₁, hfirst, hrest⟩ := h
    have hmoves := moves_insertArtifact hkeyed hfirst
    refine (hmoves.trans (ih (hmoves.keyed hkeyed) hrest)).mono ?_
    rintro c - c' ⟨c₁, -, ⟨hid₁, h₁⟩, hid', h'⟩
    refine ⟨hid'.trans hid₁, ?_⟩
    rw [hid₁] at h'
    split_ifs at h₁ h' ⊢
    · exact h₁.trans h'
    · rw [h', h₁]

/-- Artifacts are staged under the lease of the assembly only. -/
theorem moves_stageArtifacts (hkeyed : s.Keyed) {assembly : Assembly} {u : Unit}
    (h : Returns (stageArtifacts now assembly.claim assembly.artifacts) s u s') :
    s.Moves (fun c c' ↦ c'.job.id = c.job.id ∧
      if c.job.id = assembly.claim.id then Stages now assembly c c' else c' = c) s' := by
  simp only [stageArtifacts, returns_bind, returns_get, returns_require, returns_selectClone,
    exists_and_left, exists_eq_left, exists_const, and_assoc] at h
  obtain ⟨-, hany, -, _, s₁, hinsert, d', hfound, hstaged, rfl⟩ := h
  obtain ⟨d, hd, hlease⟩ := List.any_eq_true.1 hany
  have hdid := (Clone.isPhaseHeldBy_iff.1 (Clone.isPhaseLeasedBy_iff.1 hlease).2.1).1
  have hmoves := moves_insertArtifacts hkeyed hinsert
  have hkeyed' := hmoves.keyed hkeyed
  obtain ⟨hd', hd'id⟩ := find?_hasId hfound
  refine hmoves.exists_mem.mono ?_
  rintro c hc c' ⟨hc', hid', h⟩
  refine ⟨hid', ?_⟩
  split_ifs at h ⊢ with hid
  · obtain rfl := hkeyed.eq hc hd (hid.trans hdid.symm)
    obtain rfl := hkeyed'.eq hc' hd' (hid'.trans (hid.trans hd'id.symm))
    obtain ⟨added, heq, hrows, hnodup, hnew⟩ := h
    refine ⟨hlease, hstaged, added, heq, ?_, hnodup, hnew⟩
    intro row hrow
    obtain ⟨id, artifact, hartifact, rfl⟩ := hrows row hrow
    obtain ⟨part, hpart, rfl⟩ := List.mem_map.1 hartifact
    exact ⟨rfl, rfl, rfl, rfl, part, hpart, rfl⟩
  · exact h

/-- A clone is published under the lease of its assembly, and within its budget. -/
theorem moves_publishStaged (hkeyed : s.Keyed) {claim : ClaimedSitePhase}
    {artifacts : List SiteArtifactInput} {u : Unit}
    (h : Returns (publishStaged now claim artifacts) s u s') :
    s.Moves (fun c c' ↦ c'.job.id = c.job.id ∧ (c' = c ∨
      c.isPhaseLeasedBy now .assembling claim = true ∧
        totalBytes artifacts ≤ claim.policy.maxArchiveBytes ∧ ∃ messageId,
          c' = (c.publish now claim artifacts).withEvent now messageId c.terminalStatus)) s' := by
  simp only [publishStaged, returns_bind, returns_get, returns_found, returns_require,
    exists_and_left, exists_eq_left, exists_const, and_assoc] at h
  obtain ⟨d, hfound, hbudget, v, s₁, hupdate, hevent⟩ := h
  have hd : d ∈ s.clones := List.mem_of_find?_eq_some hfound
  have hlease : d.isPhaseLeasedBy now .assembling claim = true := List.find?_some hfound
  have hdid := (Clone.isPhaseHeldBy_iff.1 (Clone.isPhaseLeasedBy_iff.1 hlease).2.1).1
  refine (moves_report (Clone.sameKeys_publish claim artifacts) hupdate hevent).mono ?_
  rintro c hc c' ⟨hid', h⟩
  refine ⟨hid', ?_⟩
  split_ifs at h with hid
  · obtain rfl := hkeyed.eq hc hd (hid.trans hdid.symm)
    exact .inr ⟨hlease, hbudget, h⟩
  · exact .inl h

/-! ### Retries of phases -/

/-- A phase is retried by its recorded claim only. -/
theorem moves_retryPhase (hkeyed : s.Keyed) {claim : ClaimedSitePhase} {phase : JobStatus}
    {code : String} {u : Unit} (h : Returns (retryPhase now claim phase code) s u s') :
    s.Moves (fun c c' ↦ c'.job.id = c.job.id ∧ (c' = c ∨ c.isPhaseHeldBy claim = true ∧
      c.job.status = phase ∧ ∃ messageId, c' = c.abandonPhase now messageId claim code)) s' := by
  simp only [retryPhase, returns_bind] at h
  obtain ⟨rows, s₁, hupdate, h⟩ := h
  have hset : ∀ c : Clone, c.SameKeys ((c.retryPhase now claim code).updateArtifacts
      (SiteArtifact.isStagedIn claim.leaseGeneration) (SiteArtifact.abandon now)) := fun c ↦
    (c.sameKeys_retryPhase claim code).trans (.updateArtifacts fun _ ↦ rfl)
  have hmoves := moves_updateClones hset hupdate
  have hsel : ∀ c : Clone, (c.isPhaseHeldBy claim && decide (c.job.status = phase)) = true ↔
      c.isPhaseHeldBy claim = true ∧ c.job.status = phase := by
    intro c
    rw [Bool.and_eq_true, decide_eq_true_eq]
  split_ifs at h with hreport
  · rw [(returns_updateClones.1 hupdate).1] at hreport
    obtain ⟨d, hd, hheld⟩ := List.countP_pos_iff.1 (Nat.pos_of_ne_zero hreport.1)
    have hdid := (Clone.isPhaseHeldBy_iff.1 ((hsel d).1 hheld).1).1
    refine (hmoves.trans (moves_enqueueEvent h)).mono ?_
    rintro c hc c' ⟨c₁, -, ⟨hid₁, h₁⟩, h'⟩
    rw [hid₁] at h'
    by_cases hid : c.job.id = claim.id
    · obtain rfl := hkeyed.eq hc hd (hid.trans hdid.symm)
      rw [if_pos hheld] at h₁
      rw [if_pos hid, h₁] at h'
      refine ⟨h' ▸ (hset c).id, .inr ⟨((hsel c).1 hheld).1, ((hsel c).1 hheld).2,
        s₁.nextUuid, ?_⟩⟩
      rw [h', Clone.abandonPhase, if_pos hreport.2]
    · have hnot : ¬ (c.isPhaseHeldBy claim && decide (c.job.status = phase)) = true := fun h ↦
        hid (Clone.isPhaseHeldBy_iff.1 ((hsel c).1 h).1).1
      rw [if_neg hnot] at h₁
      rw [if_neg hid] at h'
      exact ⟨h' ▸ hid₁, .inl (h'.trans h₁)⟩
  · rw [returns_pure] at h
    rw [h.2]
    refine hmoves.mono ?_
    rintro c hc c' ⟨hid, h⟩
    refine ⟨hid, ?_⟩
    split_ifs at h with hheld
    · have hmore : ¬ claim.attemptCount ≥ 3 := by
        intro hmore
        refine hreport ⟨?_, hmore⟩
        rw [(returns_updateClones.1 hupdate).1]
        exact Nat.pos_iff_ne_zero.1 (List.countP_pos_iff.2 ⟨c, hc, hheld⟩)
      refine .inr ⟨((hsel c).1 hheld).1, ((hsel c).1 hheld).2, 0, ?_⟩
      rw [Clone.abandonPhase, if_neg hmore, h]
    · exact .inl h

/-! ### Cancellations and deadlines -/

theorem Clone.sameKeys_refreshJobCounters (c : Clone) : c.SameKeys (c.refreshJobCounters now) :=
  .ofJob rfl

theorem Clone.sameKeys_reconcile (c : Clone) : c.SameKeys (c.reconcile now) :=
  .ofJob rfl

/-- The cancellation of one clone is carried out. -/
theorem moves_reconcileJob (hkeyed : s.Keyed) {u : Unit}
    (h : Returns (reconcileJob now id) s u s') :
    s.Moves (fun c c' ↦ c'.job.id = c.job.id ∧ if c.job.id = id then
      ∃ messageId, c' = c.finishReconcile now messageId else c' = c) s' := by
  simp only [reconcileJob, returns_bind, returns_selectClone] at h
  obtain ⟨_, s₁, hrefresh, _, s₂, hreconcile, d, s₃, ⟨hfound, rfl⟩, h⟩ := h
  obtain ⟨hd, hdid⟩ := find?_hasId hfound
  have hmoves : s.Moves (fun c c' ↦ c'.job.id = c.job.id ∧ if c.job.id = id then
      c' = (c.refreshJobCounters now).reconcile now else c' = c) s₃ := by
    refine ((moves_updateClone Clone.sameKeys_refreshJobCounters hrefresh).trans
      (moves_updateClone Clone.sameKeys_reconcile hreconcile)).mono ?_
    rintro c - c' ⟨c₁, -, ⟨hid₁, h₁⟩, hid', h'⟩
    refine ⟨hid'.trans hid₁, ?_⟩
    rw [hid₁] at h'
    split_ifs at h₁ h' ⊢
    · rw [h', h₁]
    · rw [h', h₁]
  have hkeyed₃ := hmoves.keyed hkeyed
  split_ifs at h with hreport
  · refine (hmoves.trans (moves_enqueueEvent h)).mono ?_
    rintro c - c' ⟨c₁, hc₁, ⟨hid₁, h₁⟩, h'⟩
    rw [hid₁] at h'
    split_ifs at h₁ h' ⊢ with hid
    · obtain rfl := hkeyed₃.eq hc₁ hd (hid₁.trans (hid.trans hdid.symm))
      refine ⟨h' ▸ hid₁, s₃.nextUuid, ?_⟩
      rw [h₁] at h' hreport
      rw [h', Clone.finishReconcile, if_pos hreport]
    · exact ⟨h' ▸ hid₁, h'.trans h₁⟩
  · rw [returns_pure] at h
    rw [h.2]
    refine hmoves.exists_mem.mono ?_
    rintro c - c' ⟨hc', hid', h'⟩
    refine ⟨hid', ?_⟩
    split_ifs at h' ⊢ with hid
    · obtain rfl := hkeyed₃.eq hc' hd (hid'.trans (hid.trans hdid.symm))
      rw [h'] at hreport
      exact ⟨0, by rw [Clone.finishReconcile, if_neg hreport, h']⟩
    · exact h'

theorem Clone.sameKeys_exceedDeadline (c : Clone) : c.SameKeys (c.exceedDeadline now) :=
  .ofJob rfl

theorem Clone.sameKeys_cancelPages (c : Clone) : c.SameKeys c.cancelPages :=
  .updatePages fun _ ↦ rfl

/-- Every clone is cancelled that is overdue, and every cancellation is carried out that can be and
is not left to another transaction. -/
theorem moves_reconcileCancellations (hkeyed : s.Keyed) {locked : List Uuid}
    {jobs : List (Uuid × Uuid)} (h : Returns (reconcileCancellations now locked) s jobs s') :
    s.Moves (fun c c' ↦ c'.job.id = c.job.id ∧
      if (c.startReconcile now).isReconcilable = true ∧
          (c.isOverdue now = true ∨ c.job.id ∉ locked) then
        ∃ messageId, c' = (c.startReconcile now).finishReconcile now messageId
      else c' = c.startReconcile now) s' := by
  simp only [reconcileCancellations, returns_bind, returns_get, returns_pure, exists_and_left,
    exists_eq_left, and_assoc] at h
  obtain ⟨_, s₁, hoverdue, _, s₂, hcancel, _, s₃, hloop, -, rfl⟩ := h
  have hmoves : s.Moves (fun c c' ↦ c'.job.id = c.job.id ∧ c' = c.startReconcile now) s₂ := by
    refine ((moves_updateClones Clone.sameKeys_exceedDeadline hoverdue).trans
      (moves_updateClones Clone.sameKeys_cancelPages hcancel)).mono ?_
    rintro c - c' ⟨c₁, -, ⟨hid₁, h₁⟩, hid', h'⟩
    refine ⟨hid'.trans hid₁, ?_⟩
    have heq : c₁ = if c.isOverdue now then c.exceedDeadline now else c := by
      split_ifs at h₁ ⊢ <;> exact h₁
    rw [Clone.startReconcile, ← heq]
    simp only [decide_eq_true_eq] at h'
    split_ifs at h' ⊢ <;> exact h'
  have hkeyed₂ := hmoves.keyed hkeyed
  have hnodup : ((s₂.clones.filter fun c ↦ c.isReconcilable &&
      (decide (c.job.id ∈ (s.clones.filter (Clone.isOverdue now)).map fun c ↦ c.job.id) ||
        decide (c.job.id ∉ locked))).map fun c ↦ c.job.id).Nodup :=
    hkeyed₂.ids.sublist (List.Sublist.map _ List.filter_sublist)
  refine (hmoves.trans (moves_forM (fun c c' ↦ ∃ messageId, c' = c.finishReconcile now messageId)
    (fun hkeyed hbody ↦ moves_reconcileJob hkeyed hbody) hnodup hkeyed₂ hloop)).mono ?_
  rintro c hc c' ⟨c₁, hc₁, ⟨hid₁, rfl⟩, hid', h'⟩
  refine ⟨hid'.trans hid₁, ?_⟩
  have hmem : (c.startReconcile now).job.id ∈ (s₂.clones.filter fun c ↦ c.isReconcilable &&
      (decide (c.job.id ∈ (s.clones.filter (Clone.isOverdue now)).map fun c ↦ c.job.id) ||
        decide (c.job.id ∉ locked))).map (fun c ↦ c.job.id) ↔
      (c.startReconcile now).isReconcilable = true ∧
        (c.isOverdue now = true ∨ c.job.id ∉ locked) := by
    have hover : c.job.id ∈ ((s.clones.filter (Clone.isOverdue now)).map fun c ↦ c.job.id) ↔
        c.isOverdue now = true := by
      constructor
      · intro hmem
        obtain ⟨d, hd, hdid⟩ := List.mem_map.1 hmem
        obtain ⟨hd, hover⟩ := List.mem_filter.1 hd
        exact hkeyed.eq hd hc hdid ▸ hover
      · intro hover
        exact List.mem_map.2 ⟨c, List.mem_filter.2 ⟨hc, hover⟩, rfl⟩
    constructor
    · intro hmem
      obtain ⟨d, hd, hdid⟩ := List.mem_map.1 hmem
      obtain ⟨hd, hsel⟩ := List.mem_filter.1 hd
      obtain rfl := hkeyed₂.eq hd hc₁ hdid
      rw [Bool.and_eq_true, Bool.or_eq_true, decide_eq_true_eq, decide_eq_true_eq, hid₁,
        hover] at hsel
      exact hsel
    · intro hsel
      refine List.mem_map.2 ⟨_, List.mem_filter.2 ⟨hc₁, ?_⟩, rfl⟩
      rw [Bool.and_eq_true, Bool.or_eq_true, decide_eq_true_eq, decide_eq_true_eq, hid₁, hover]
      exact hsel
  simp only [hmem] at h'
  exact h'

/-! ### Garbage collection -/

theorem dueArtifact_mem {locked : List Uuid} {clones : List Clone} {c : Clone}
    {row : SiteArtifact} (h : dueArtifact now locked clones = some (c, row)) :
    c ∈ clones ∧ row ∈ c.artifacts ∧ row.isDue now = true := by
  obtain ⟨d, hd, hentry⟩ := List.mem_flatMap.1 (Table.firstBy_mem h)
  obtain ⟨other, hother, heq⟩ := List.mem_map.1 hentry
  obtain ⟨rfl, rfl⟩ := Prod.mk.inj heq
  have hmem := List.mem_filter.1 (List.mem_filter.1 hother).1
  exact ⟨hd, hmem.1, hmem.2⟩

theorem dueBundle_mem {locked : List PageKey} {clones : List Clone} {c : Clone}
    {page : SitePage} (h : dueBundle now locked clones = some (c, page)) :
    c ∈ clones ∧ page ∈ c.pages ∧ c.isBundleDue now page = true := by
  obtain ⟨d, hd, hentry⟩ := List.mem_flatMap.1 (Table.firstBy_mem h)
  obtain ⟨other, hother, heq⟩ := List.mem_map.1 hentry
  obtain ⟨rfl, rfl⟩ := Prod.mk.inj heq
  have hmem := List.mem_filter.1 (List.mem_filter.1 hother).1
  exact ⟨hd, hmem.1, hmem.2⟩

/-- The collector claims an artifact or a bundle that is due. -/
theorem moves_claimObjectForDeletion (hkeyed : s.Keyed) {locks : DeletionLocks}
    {result : Option ClaimedSiteObjectDeletion}
    (h : Returns (claimObjectForDeletion now locks) s result s') :
    s.Moves (Claims result ClaimedSiteObjectDeletion.jobId (fun c c' ↦ c' = c)
      fun deletion c c' ↦
        (∃ row ∈ c.artifacts, row.isDue now = true ∧
          deletion = .artifact c.job.id row.id row.object ∧
          c' = c.updateArtifacts (fun other ↦ decide (other.id = row.id))
            (SiteArtifact.claim now)) ∨
        ∃ page ∈ c.pages, c.isBundleDue now page = true ∧ ∃ object, page.bundle = some object ∧
          deletion = .pageBundle c.job.id page.pageId object ∧
          c' = c.updatePages (fun other ↦ decide (other.pageId = page.pageId))
            (SitePage.claimBundle now)) s' := by
  simp only [claimObjectForDeletion, returns_bind, returns_get, exists_and_left, exists_eq_left,
    and_assoc] at h
  split at h
  · next d row hfirst =>
    simp only [returns_bind, returns_pure] at h
    obtain ⟨_, s₁, hupdate, rfl, rfl⟩ := h
    obtain ⟨hd, hrow, hdue⟩ := dueArtifact_mem hfirst
    have hset : ∀ c : Clone, c.SameKeys (c.updateArtifacts (fun other ↦ decide (other.id = row.id))
        (SiteArtifact.claim now)) := fun c ↦ .updateArtifacts fun _ ↦ rfl
    refine (moves_updateClone hset hupdate).mono ?_
    rintro c hc c' ⟨hid', h⟩
    refine ⟨hid', ?_⟩
    split_ifs at h with hid
    · obtain rfl := hkeyed.eq hc hd hid
      exact .inr ⟨_, rfl, rfl, .inl ⟨row, hrow, hdue, rfl, h⟩⟩
    · refine .inl ⟨h, ?_⟩
      rintro a ha
      rw [← Option.some.inj ha]
      exact fun heq ↦ hid heq.symm
  · split at h
    · next d page hfirst =>
      simp only [returns_bind, returns_found, returns_pure] at h
      obtain ⟨_, s₁, hupdate, object, s₂, ⟨hobject, rfl⟩, rfl, rfl⟩ := h
      obtain ⟨hd, hpage, hdue⟩ := dueBundle_mem hfirst
      have hset : ∀ c : Clone, c.SameKeys (c.updatePages
          (fun other ↦ decide (other.pageId = page.pageId)) (SitePage.claimBundle now)) :=
        fun c ↦ .updatePages fun _ ↦ rfl
      refine (moves_updateClone hset hupdate).mono ?_
      rintro c hc c' ⟨hid', h⟩
      refine ⟨hid', ?_⟩
      split_ifs at h with hid
      · obtain rfl := hkeyed.eq hc hd hid
        exact .inr ⟨_, rfl, rfl, .inr ⟨page, hpage, hdue, object, hobject, rfl, h⟩⟩
      · refine .inl ⟨h, ?_⟩
        rintro a ha
        rw [← Option.some.inj ha]
        exact fun heq ↦ hid heq.symm
    · rw [returns_pure] at h
      rw [h.1, h.2]
      exact .refl _ (fun c ↦ ⟨rfl, .inl ⟨rfl, fun a ha ↦ by cases ha⟩⟩) s

theorem Clone.sameKeys_deleteArtifact (artifactId : Uuid) (c : Clone) :
    c.SameKeys (c.deleteArtifact artifactId) :=
  .updateArtifacts fun _ ↦ rfl

theorem Clone.sameKeys_expire (c : Clone) : c.SameKeys (c.expire now) :=
  .ofJob rfl

/-- The deletion of an artifact, which may have been the last one of its clone. -/
theorem moves_completeArtifactDeletion (hkeyed : s.Keyed) {jobId artifactId : Uuid}
    {object : StoredObject} {u : Unit}
    (h : Returns (completeObjectDeletion now (.artifact jobId artifactId object)) s u s') :
    s.Moves (fun c c' ↦ c'.job.id = c.job.id ∧ (c' = c ∨ c.job.id = jobId ∧
      c.artifacts.any (SiteArtifact.isDeletable artifactId) = true ∧
        ∃ messageId, c' = c.finishDeletion now messageId artifactId)) s' := by
  simp only [completeObjectDeletion, returns_bind, returns_require, returns_selectClone] at h
  obtain ⟨rows, s₁, hupdate, _, s₂, ⟨hrows, rfl⟩, d', s₃, ⟨hfound, rfl⟩, h⟩ := h
  rw [(returns_updateClones.1 hupdate).1] at hrows
  obtain ⟨d, hd, hsel⟩ := List.countP_pos_iff.1 (Nat.pos_of_ne_zero hrows)
  have hsel' := hsel
  rw [Bool.and_eq_true, Clone.hasId_iff] at hsel'
  have hmoves := moves_updateClones (Clone.sameKeys_deleteArtifact artifactId) hupdate
  have hkeyed₃ := hmoves.keyed hkeyed
  obtain ⟨hd', hd'id⟩ := find?_hasId hfound
  have hdeleted : ∀ c ∈ s.clones, ∀ c₁, c.job.id = jobId → (if (c.hasId jobId &&
      c.artifacts.any (SiteArtifact.isDeletable artifactId)) = true then
        c₁ = c.deleteArtifact artifactId else c₁ = c) →
      c.artifacts.any (SiteArtifact.isDeletable artifactId) = true ∧
        c₁ = c.deleteArtifact artifactId := by
    intro c hc c₁ hid h₁
    obtain rfl := hkeyed.eq hc hd (hid.trans hsel'.1.symm)
    rw [if_pos hsel] at h₁
    exact ⟨hsel'.2, h₁⟩
  have hother : ∀ c c₁ : Clone, c.job.id ≠ jobId → (if (c.hasId jobId &&
      c.artifacts.any (SiteArtifact.isDeletable artifactId)) = true then
        c₁ = c.deleteArtifact artifactId else c₁ = c) → c₁ = c := by
    intro c c₁ hid h₁
    rw [if_neg] at h₁
    · exact h₁
    · rw [Bool.and_eq_true, Clone.hasId_iff]
      exact fun h ↦ hid h.1
  split_ifs at h with hlast
  · simp only [returns_bind] at h
    obtain ⟨_, s₄, hexpire, hevent⟩ := h
    refine (hmoves.trans (moves_report Clone.sameKeys_expire hexpire hevent)).mono ?_
    rintro c hc c' ⟨c₁, hc₁, ⟨hid₁, h₁⟩, hid', h'⟩
    refine ⟨hid'.trans hid₁, ?_⟩
    rw [hid₁] at h'
    split_ifs at h' with hid
    · obtain ⟨hany, rfl⟩ := hdeleted c hc c₁ hid h₁
      obtain rfl := hkeyed₃.eq hc₁ hd' (hid₁.trans (hid.trans hd'id.symm))
      obtain ⟨messageId, h'⟩ := h'
      refine .inr ⟨hid, hany, messageId, ?_⟩
      rw [Clone.finishDeletion, if_pos hlast, h']
    · rw [h', hother c c₁ hid h₁]
      exact .inl rfl
  · rw [returns_pure] at h
    rw [h.2]
    refine hmoves.exists_mem.mono ?_
    rintro c hc c' ⟨hc', hid', h'⟩
    refine ⟨hid', ?_⟩
    by_cases hid : c.job.id = jobId
    · obtain ⟨hany, rfl⟩ := hdeleted c hc c' hid h'
      obtain rfl := hkeyed₃.eq hc' hd' (hid'.trans (hid.trans hd'id.symm))
      refine .inr ⟨hid, hany, 0, ?_⟩
      rw [Clone.finishDeletion, if_neg hlast]
    · exact .inl (hother c c' hid h')

/-- The deletion of the bundle of a page. -/
theorem moves_completeBundleDeletion {jobId pageId : Uuid} {object : StoredObject} {u : Unit}
    (h : Returns (completeObjectDeletion now (.pageBundle jobId pageId object)) s u s') :
    s.Moves (fun c c' ↦ c'.job.id = c.job.id ∧ (c' = c ∨ c.job.id = jobId ∧
      c' = c.updatePages (SitePage.isBundleDeletable pageId) fun page ↦
        { page with bundleState := some .deleted, bundleDeleteAfter := some now })) s' := by
  simp only [completeObjectDeletion, returns_bind, returns_require] at h
  obtain ⟨rows, s₁, hupdate, -, rfl⟩ := h
  have hset : ∀ c : Clone, c.SameKeys (c.updatePages (SitePage.isBundleDeletable pageId)
      fun page ↦ { page with bundleState := some .deleted, bundleDeleteAfter := some now }) :=
    fun c ↦ .updatePages fun _ ↦ rfl
  refine (moves_updateClones hset hupdate).mono fun c _ c' h ↦ ⟨h.1, ?_⟩
  obtain ⟨-, h⟩ := h
  split_ifs at h with hsel
  · rw [Bool.and_eq_true, Clone.hasId_iff] at hsel
    exact .inr ⟨hsel.1, h⟩
  · exact .inl h

/-- The deletion of an artifact that failed is put off. -/
theorem moves_retryArtifactDeletion {jobId artifactId : Uuid} {object : StoredObject} {u : Unit}
    (h : Returns (retryObjectDeletion now (.artifact jobId artifactId object)) s u s') :
    s.Moves (fun c c' ↦ c'.job.id = c.job.id ∧ (c' = c ∨ c.job.id = jobId ∧
      c' = c.updateArtifacts (SiteArtifact.isDeletable artifactId)
        fun row ↦ { row with deleteAfter := now + minute })) s' := by
  simp only [retryObjectDeletion, returns_bind, returns_pure] at h
  obtain ⟨rows, s₁, hupdate, -, rfl⟩ := h
  have hset : ∀ c : Clone, c.SameKeys (c.updateArtifacts (SiteArtifact.isDeletable artifactId)
      fun row ↦ { row with deleteAfter := now + minute }) := fun c ↦ .updateArtifacts fun _ ↦ rfl
  refine (moves_updateClones hset hupdate).mono fun c _ c' h ↦ ⟨h.1, ?_⟩
  obtain ⟨-, h⟩ := h
  split_ifs at h with hsel
  · exact .inr ⟨Clone.hasId_iff.1 hsel, h⟩
  · exact .inl h

/-- The deletion of a bundle that failed is put off. -/
theorem moves_retryBundleDeletion {jobId pageId : Uuid} {object : StoredObject} {u : Unit}
    (h : Returns (retryObjectDeletion now (.pageBundle jobId pageId object)) s u s') :
    s.Moves (fun c c' ↦ c'.job.id = c.job.id ∧ (c' = c ∨ c.job.id = jobId ∧
      c' = c.updatePages (SitePage.isBundleDeletable pageId)
        fun page ↦ { page with bundleDeleteAfter := some (now + minute) })) s' := by
  simp only [retryObjectDeletion, returns_bind, returns_pure] at h
  obtain ⟨rows, s₁, hupdate, -, rfl⟩ := h
  have hset : ∀ c : Clone, c.SameKeys (c.updatePages (SitePage.isBundleDeletable pageId)
      fun page ↦ { page with bundleDeleteAfter := some (now + minute) }) := fun c ↦
    .updatePages fun _ ↦ rfl
  refine (moves_updateClones hset hupdate).mono fun c _ c' h ↦ ⟨h.1, ?_⟩
  obtain ⟨-, h⟩ := h
  split_ifs at h with hsel
  · exact .inr ⟨Clone.hasId_iff.1 hsel, h⟩
  · exact .inl h

end WebLens.SiteClone
