import WebLens.SiteClone.Outcome

/-!
# Workers that come back too late

A worker whose phase or page is no longer leased to it changes nothing: every transaction in which
it returns with its claim leaves the system as it is.
-/

set_option autoImplicit false
set_option relaxedAutoImplicit false

namespace WebLens.SiteClone

open Lib Lib.Utf8 Lib.Transaction
open Capture (Uuid Instant Duration minute)

variable {env : Env} {action : Action} {sys : System}

/-- The recorded owner and generation of the phase are not those of the claim. -/
def Store.IsStalePhase (claim : ClaimedSitePhase) (s : Store) : Prop :=
  ∀ c ∈ s.clones, c.job.id = claim.id →
    c.job.phaseLeaseOwner ≠ some claim.leaseOwner ∨
      c.job.phaseLeaseGeneration ≠ claim.leaseGeneration

/-- The recorded owner and generation of the page are not those of the claim. -/
def Store.IsStalePage (claim : ClaimedSitePage) (s : Store) : Prop :=
  ∀ c ∈ s.clones, c.job.id = claim.jobId → ∀ page ∈ c.pages, page.pageId = claim.pageId →
    page.leaseOwner ≠ some claim.leaseOwner ∨ page.leaseGeneration ≠ claim.leaseGeneration

/-- The claim of a phase with which a worker returns to the database. -/
def Action.phaseClaim? : Action → Option ClaimedSitePhase
  | .extendPhaseLease claim => some claim
  | .addTargets claim _ => some claim
  | .finishIngestion claim => some claim
  | .stageArtifacts assembly => some assembly.claim
  | .restageArtifacts assembly => some assembly.claim
  | .publishArtifacts assembly => some assembly.claim
  | .retryIngestion claim _ => some claim
  | .retryAssembly claim _ => some claim
  | _ => none

/-- The claim of a page with which a worker returns to the database. -/
def Action.pageClaim? : Action → Option ClaimedSitePage
  | .extendPageLease claim => some claim
  | .completePage claim _ _ _ _ => some claim
  | .failPage claim _ => some claim
  | _ => none

theorem Store.IsStalePhase.isPhaseHeldBy {s : Store} {claim : ClaimedSitePhase}
    (h : s.IsStalePhase claim) : ∀ c ∈ s.clones, c.isPhaseHeldBy claim = false := by
  intro c hc
  rw [← Bool.not_eq_true]
  intro hheld
  obtain ⟨hid, howner, hgeneration⟩ := Clone.isPhaseHeldBy_iff.1 hheld
  exact (h c hc hid).elim (fun hne ↦ hne howner) fun hne ↦ hne hgeneration

theorem Store.IsStalePage.isPageHeldBy {s : Store} {claim : ClaimedSitePage}
    (h : s.IsStalePage claim) : ∀ c ∈ s.clones, c.isPageHeldBy claim = false := by
  intro c hc
  rw [← Bool.not_eq_true]
  intro hheld
  obtain ⟨hid, hany⟩ := Bool.and_eq_true_iff.1 hheld
  obtain ⟨page, hpage, hsel⟩ := List.any_eq_true.1 hany
  simp only [SitePage.isHeldBy, Bool.and_eq_true, decide_eq_true_eq] at hsel
  exact (h c hc (Clone.hasId_iff.1 hid) page hpage hsel.1.1.1).elim
    (fun hne ↦ hne hsel.1.2) fun hne ↦ hne hsel.2

/-- An update that selects no clone changes nothing. -/
theorem returns_updateClones_of_not {s s' : Store} {sel : Clone → Bool} {set : Clone → Clone}
    {updated : ℕ} (hsel : ∀ c ∈ s.clones, sel c = false)
    (h : Returns (updateClones sel set) s updated s') : updated = 0 ∧ s' = s := by
  obtain ⟨hupdated, rfl⟩ := returns_updateClones.1 h
  rw [Table.update_eq_self hsel]
  refine ⟨hupdated ▸ List.countP_eq_zero.2 fun c hc ↦ ?_, rfl⟩
  rw [hsel c hc]
  exact Bool.false_ne_true

theorem System.commit_eq {α : Type} {body : Tx α}
    (h : ∀ a s', Returns body sys.store a s' → s' = sys.store) : sys.commit body = sys := by
  unfold System.commit
  rw [commit_snd_eq h]

/-! ### Phases -/

section Phases

variable {s s' : Store} {now : Instant} {claim : ClaimedSitePhase}

theorem Store.IsStalePhase.isPhaseLeasedBy {phase : JobStatus} (h : s.IsStalePhase claim) :
    ∀ c ∈ s.clones, c.isPhaseLeasedBy now phase claim = false := by
  intro c hc
  rw [Clone.isPhaseLeasedBy, h.isPhaseHeldBy c hc, Bool.and_false, Bool.false_and]

theorem Store.IsStalePhase.find?_eq {phase : JobStatus} (h : s.IsStalePhase claim) :
    s.clones.find? (Clone.isPhaseLeasedBy now phase claim) = none :=
  List.find?_eq_none.2 fun c hc ↦ Bool.not_eq_true _ ▸ h.isPhaseLeasedBy c hc

theorem extendPhaseLease_of_isStale {held : Bool} (hstale : s.IsStalePhase claim)
    (h : Returns (extendPhaseLease now claim) s held s') : s' = s := by
  simp only [extendPhaseLease, returns_bind, returns_pure] at h
  obtain ⟨updated, s₁, hupdate, -, rfl⟩ := h
  refine (returns_updateClones_of_not (fun c hc ↦ ?_) hupdate).2
  rw [hstale.isPhaseHeldBy c hc, Bool.false_and]

theorem addTargets_of_isStale {targets : List SiteTargetInput} {added : ℕ}
    (hstale : s.IsStalePhase claim) (h : Returns (addTargets now claim targets) s added s') :
    s' = s := by
  unfold addTargets at h
  split_ifs at h
  · exact (returns_pure.1 h).2
  · simp only [returns_bind, returns_get, returns_found] at h
    obtain ⟨_, _, ⟨rfl, rfl⟩, _, _, ⟨h, -⟩, -⟩ := h
    rw [hstale.find?_eq] at h
    cases h

theorem finishIngestion_of_isStale {u : Unit} (hstale : s.IsStalePhase claim)
    (h : Returns (finishIngestion now claim) s u s') : s' = s := by
  simp only [finishIngestion, returns_bind, returns_get, returns_require] at h
  obtain ⟨_, _, ⟨rfl, rfl⟩, updated, s₁, hupdate, _, _, ⟨hne, -⟩, -⟩ := h
  refine absurd (returns_updateClones_of_not (fun c hc ↦ ?_) hupdate).1 hne
  rw [hstale.isPhaseHeldBy c hc, Bool.false_and]

theorem stageArtifacts_of_isStale {artifacts : List SiteArtifactInput} {u : Unit}
    (hstale : s.IsStalePhase claim) : ¬ Returns (stageArtifacts now claim artifacts) s u s' := by
  intro h
  simp only [stageArtifacts, returns_bind, returns_get, returns_require] at h
  obtain ⟨_, _, ⟨-, rfl⟩, _, _, ⟨rfl, rfl⟩, _, _, ⟨hany, -⟩, -⟩ := h
  obtain ⟨c, hc, hleased⟩ := List.any_eq_true.1 hany
  rw [hstale.isPhaseLeasedBy c hc] at hleased
  cases hleased

theorem publishStaged_of_isStale {artifacts : List SiteArtifactInput} {u : Unit}
    (hstale : s.IsStalePhase claim) (h : Returns (publishStaged now claim artifacts) s u s') :
    s' = s := by
  simp only [publishStaged, returns_bind, returns_get, returns_found] at h
  obtain ⟨_, _, ⟨rfl, rfl⟩, _, _, ⟨h, -⟩, -⟩ := h
  rw [hstale.find?_eq] at h
  cases h

theorem retryPhase_of_isStale {phase : JobStatus} {code : String} {u : Unit}
    (hstale : s.IsStalePhase claim) (h : Returns (retryPhase now claim phase code) s u s') :
    s' = s := by
  simp only [retryPhase, returns_bind] at h
  obtain ⟨updated, s₁, hupdate, h⟩ := h
  obtain ⟨rfl, rfl⟩ := returns_updateClones_of_not
    (fun c hc ↦ by rw [hstale.isPhaseHeldBy c hc, Bool.false_and]) hupdate
  rw [if_neg fun h ↦ h.1 rfl] at h
  exact (returns_pure.1 h).2

end Phases

/-- A worker that has lost its phase changes nothing. -/
theorem System.step_of_isStalePhase {claim : ClaimedSitePhase} (h : sys.store.IsStalePhase claim)
    (haction : action.phaseClaim? = some claim) : sys.step env action = sys := by
  cases action with
  | extendPhaseLease claim =>
    obtain rfl := Option.some.inj haction
    exact ite_eq_right_iff.2 fun _ ↦ System.commit_eq fun _ _ ↦ extendPhaseLease_of_isStale h
  | addTargets claim targets =>
    obtain rfl := Option.some.inj haction
    exact ite_eq_right_iff.2 fun _ ↦ System.commit_eq fun _ _ ↦ addTargets_of_isStale h
  | finishIngestion claim =>
    obtain rfl := Option.some.inj haction
    exact ite_eq_right_iff.2 fun _ ↦ System.commit_eq fun _ _ ↦ finishIngestion_of_isStale h
  | stageArtifacts assembly | restageArtifacts assembly =>
    obtain rfl := Option.some.inj haction
    refine ite_eq_right_iff.2 fun _ ↦ ?_
    rcases commit_cases (stageArtifacts sys.now assembly.claim assembly.artifacts) sys.store with
      ⟨u, s', -, hreturns⟩ | ⟨e, heq⟩
    · exact absurd hreturns (stageArtifacts_of_isStale h)
    · rw [heq]
      rfl
  | publishArtifacts assembly =>
    obtain rfl := Option.some.inj haction
    exact ite_eq_right_iff.2 fun _ ↦ System.commit_eq fun _ _ ↦ publishStaged_of_isStale h
  | retryIngestion claim code =>
    obtain rfl := Option.some.inj haction
    exact ite_eq_right_iff.2 fun _ ↦ System.commit_eq fun _ _ ↦ retryPhase_of_isStale h
  | retryAssembly claim code =>
    obtain rfl := Option.some.inj haction
    exact ite_eq_right_iff.2 fun _ ↦ System.commit_eq fun _ _ ↦ retryPhase_of_isStale h
  | _ => cases haction

/-! ### Pages -/

section Pages

variable {s s' : Store} {now : Instant} {claim : ClaimedSitePage}

theorem extendPageLease_of_isStale {held : Bool} (hstale : s.IsStalePage claim)
    (h : Returns (extendPageLease now claim) s held s') : s' = s := by
  simp only [extendPageLease, returns_bind, returns_pure] at h
  obtain ⟨updated, s₁, hupdate, -, rfl⟩ := h
  exact (returns_updateClones_of_not hstale.isPageHeldBy hupdate).2

theorem completePage_of_isStale {bundle : StoredObject} {inputBytes : ℕ} {accepted : Bool}
    (hstale : s.IsStalePage claim)
    (h : Returns (completePage now claim bundle inputBytes) s accepted s') : s' = s := by
  simp only [completePage, returns_bind, returns_get, returns_require] at h
  obtain ⟨_, _, ⟨rfl, rfl⟩, _, _, ⟨hany, -⟩, -⟩ := h
  obtain ⟨c, hc, hheld⟩ := List.any_eq_true.1 hany
  rw [hstale.isPageHeldBy c hc] at hheld
  cases hheld

theorem failPage_of_isStale {code : String} {u : Unit} (hstale : s.IsStalePage claim)
    (h : Returns (failPage now claim code) s u s') : s' = s := by
  simp only [failPage, returns_bind] at h
  obtain ⟨updated, s₁, hupdate, h⟩ := h
  obtain ⟨rfl, rfl⟩ := returns_updateClones_of_not hstale.isPageHeldBy hupdate
  rw [if_neg fun h ↦ h.1 rfl] at h
  exact (returns_pure.1 h).2

end Pages

/-- A worker that has lost its page changes nothing. -/
theorem System.step_of_isStalePage {claim : ClaimedSitePage} (h : sys.store.IsStalePage claim)
    (haction : action.pageClaim? = some claim) : sys.step env action = sys := by
  cases action with
  | extendPageLease claim =>
    obtain rfl := Option.some.inj haction
    exact ite_eq_right_iff.2 fun _ ↦ System.commit_eq fun _ _ ↦ extendPageLease_of_isStale h
  | completePage claim bucket bytes sha256 inputBytes =>
    obtain rfl := Option.some.inj haction
    exact ite_eq_right_iff.2 fun _ ↦ System.commit_eq fun _ _ ↦ completePage_of_isStale h
  | failPage claim code =>
    obtain rfl := Option.some.inj haction
    exact ite_eq_right_iff.2 fun _ ↦ System.commit_eq fun _ _ ↦ failPage_of_isStale h
  | _ => cases haction

end WebLens.SiteClone
