import WebLens.SiteClone.Leases

/-!
# How pages and jobs end

A page that is over stays as it is, and only a cancelled job cancels pages. So a job whose assembly
is claimed has no page left to render, and the status it is published with says whether every page
succeeded or had been rejected at ingestion.
-/

set_option autoImplicit false
set_option relaxedAutoImplicit false

namespace WebLens.SiteClone

open Lib Lib.Utf8 Lib.Transaction
open Capture (Uuid Instant Duration minute)

variable {env : Env} {action : Action} {now : Instant} {c c' : Case}

/-! ### Pages in their places -/

/-- What a step that leaves the job in a phase can do to a page. -/
structure PageMove (phase : JobStatus) (page page' : SitePage) : Prop where
  pageId : page'.pageId = page.pageId
  ended : page.status.isActive = false →
    page'.status = page.status ∧ page'.failureCode = page.failureCode
  cancelled : page'.status = .cancelled → page.status = .cancelled ∨
    phase ≠ .ingesting ∧ page'.failureCode = some "CANCELLED"

theorem PageMove.refl (phase : JobStatus) (page : SitePage) : PageMove phase page page :=
  ⟨rfl, fun _ ↦ ⟨rfl, rfl⟩, .inl⟩

theorem PageMove.trans {phase : JobStatus} {page page' page'' : SitePage}
    (h : PageMove phase page page') (h' : PageMove phase page' page'') :
    PageMove phase page page'' where
  pageId := h'.pageId.trans h.pageId
  ended hover := by
    obtain ⟨hstatus, hcode⟩ := h.ended hover
    obtain ⟨hstatus', hcode'⟩ := h'.ended (hstatus ▸ hover)
    exact ⟨hstatus'.trans hstatus, hcode'.trans hcode⟩
  cancelled hcancelled := by
    rcases h'.cancelled hcancelled with hearlier | hnow
    · rcases h.cancelled hearlier with hfirst | ⟨hphase, hcode⟩
      · exact .inl hfirst
      · have hover := h'.ended (by rw [hearlier]; rfl)
        exact .inr ⟨hphase, hover.2.trans hcode⟩
    · exact .inr hnow

/-- A page that was active and is not cancelled. -/
theorem PageMove.active {phase : JobStatus} {page page' : SitePage}
    (hid : page'.pageId = page.pageId) (hactive : page.status.isActive = true)
    (hcancelled : page'.status ≠ .cancelled) : PageMove phase page page' where
  pageId := hid
  ended h := by
    rw [hactive] at h
    cases h
  cancelled h := absurd h hcancelled

/-- The pages stand in their places. -/
def Clone.PagesMove (phase : JobStatus) (d d' : Clone) : Prop :=
  List.Forall₂ (PageMove phase) d.pages d'.pages

theorem Clone.PagesMove.of_eq {phase : JobStatus} {d d' : Clone} (h : d'.pages = d.pages) :
    d.PagesMove phase d' := by
  unfold Clone.PagesMove
  rw [h]
  exact List.forall₂_same.2 fun page _ ↦ .refl phase page

theorem Clone.PagesMove.trans {phase : JobStatus} {d d' d'' : Clone} (h : d.PagesMove phase d')
    (h' : d'.PagesMove phase d'') : d.PagesMove phase d'' :=
  Table.forall₂_trans (R := PageMove phase) PageMove.trans h h'

theorem Clone.pagesMove_update {phase : JobStatus} (d : Clone) {sel : SitePage → Bool}
    {set : SitePage → SitePage}
    (h : ∀ page ∈ d.pages, sel page = true → PageMove phase page (set page)) :
    d.PagesMove phase (d.updatePages sel set) :=
  Table.forall₂_update (PageMove.refl phase) h

theorem SitePage.isHeldBy_active {page : SitePage} {claim : ClaimedSitePage}
    (h : page.isHeldBy claim = true) : page.status.isActive = true := by
  simp only [SitePage.isHeldBy, Bool.and_eq_true, decide_eq_true_eq] at h
  rw [h.1.1.2]
  rfl

theorem Clone.pagesMove_updateHeld {phase : JobStatus} (d : Clone) (claim : ClaimedSitePage)
    (set : SitePage → SitePage) (hid : ∀ page, (set page).pageId = page.pageId)
    (hcancelled : ∀ page, (set page).status = .cancelled →
      page.status = .cancelled ∨ phase ≠ .ingesting ∧ (set page).failureCode = some "CANCELLED") :
    d.PagesMove phase (d.updateHeld claim set) := by
  refine d.pagesMove_update fun page _ hsel ↦ ⟨hid page, fun hover ↦ ?_, hcancelled page⟩
  rw [SitePage.isHeldBy_active hsel] at hover
  cases hover

theorem Clone.pagesMove_reclaim {phase : JobStatus} (d : Clone) (keys : List PageKey) :
    d.PagesMove phase (d.reclaim now keys) := by
  refine d.pagesMove_update fun page _ hsel ↦ PageMove.active ?_ ?_ ?_
  · exact SitePage.reclaim_pageId _ page
  · rw [SitePage.isExpired_status (Bool.and_eq_true_iff.1 hsel).1]
    rfl
  · exact page.reclaim_status_ne now _ (by decide) (by decide)

theorem Clone.pagesMove_cancelPages {phase : JobStatus} (d : Clone) (hphase : phase ≠ .ingesting) :
    d.PagesMove phase d.cancelPages := by
  refine d.pagesMove_update fun page _ hsel ↦ ⟨rfl, fun hover ↦ ?_, fun _ ↦ .inr ⟨hphase, rfl⟩⟩
  rw [of_decide_eq_true hsel] at hover
  cases hover

theorem Clone.pagesMove_claimPage {phase : JobStatus} {d : Clone} {page : SitePage}
    {workerId : Uuid} (hnodup : (d.pages.map SitePage.pageId).Nodup) (hpage : page ∈ d.pages)
    (hstatus : page.status = .queued) :
    d.PagesMove phase (d.claimPage now workerId page.pageId) := by
  refine d.pagesMove_update fun other hother hsel ↦ PageMove.active rfl ?_ (fun h ↦ (by cases h))
  rw [Table.eq_of_key_eq hnodup hother hpage (of_decide_eq_true hsel), hstatus]
  rfl

theorem Clone.pages_incrementJob (d : Clone) (messageId : Uuid) (succeeded : Bool)
    (inputBytes : ℕ) : (d.incrementJob now messageId succeeded inputBytes).pages = d.pages := by
  unfold Clone.incrementJob
  dsimp only
  split_ifs <;> rfl

theorem Clone.pages_finishIngestion (d : Clone) : (d.finishIngestion now).pages = d.pages := by
  unfold Clone.finishIngestion
  split_ifs <;> rfl

theorem Clone.pages_abandonPhase (d : Clone) (messageId : Uuid) (claim : ClaimedSitePhase)
    (code : String) : (d.abandonPhase now messageId claim code).pages = d.pages := by
  unfold Clone.abandonPhase Clone.retryPhase
  dsimp only
  split_ifs <;> rfl

theorem Clone.pages_finishDeletion (d : Clone) (messageId artifactId : Uuid) :
    (d.finishDeletion now messageId artifactId).pages = d.pages := by
  unfold Clone.finishDeletion
  dsimp only
  split_ifs <;> rfl

theorem Clone.pages_finishReconcile (d : Clone) (messageId : Uuid) :
    (d.finishReconcile now messageId).pages = d.pages := by
  unfold Clone.finishReconcile
  dsimp only
  split_ifs <;> rfl

theorem Clone.pagesMove_failPage {phase : JobStatus} (d : Clone) (messageId : Uuid)
    (claim : ClaimedSitePage) (code : String) :
    d.PagesMove phase (d.failPage now messageId claim code) := by
  have hfail : d.PagesMove phase (d.updateHeld claim (SitePage.fail now claim code)) := by
    refine d.pagesMove_updateHeld _ _ (fun page ↦ SitePage.fail_pageId claim code page) ?_
    intro page h
    unfold SitePage.fail at h
    split_ifs at h
  unfold Clone.failPage
  dsimp only
  split_ifs
  · exact hfail
  · exact hfail.trans (.of_eq (Clone.pages_incrementJob _ messageId false 0))

theorem Clone.startReconcile_cases (now : Instant) (d : Clone) :
    (d.startReconcile now).job.status = .cancelRequested ∧
      ((d.startReconcile now).pages = d.cancelPages.pages) ∨
    d.startReconcile now = d ∧ d.job.status ≠ .cancelRequested := by
  unfold Clone.startReconcile
  by_cases hoverdue : d.isOverdue now = true
  · rw [if_pos hoverdue]
    exact .inl ⟨rfl, rfl⟩
  · rw [if_neg hoverdue]
    by_cases hcancelled : d.job.status = .cancelRequested
    · rw [if_pos hcancelled]
      exact .inl ⟨hcancelled, rfl⟩
    · rw [if_neg hcancelled]
      exact .inr ⟨rfl, hcancelled⟩

theorem Clone.finishReconcile_status (now : Instant) (messageId : Uuid) (d : Clone) :
    (d.finishReconcile now messageId).job.status = .running ∨
      (d.finishReconcile now messageId).job.status = .failed ∨
      (d.finishReconcile now messageId).job.status = .cancelled := by
  have hreconcile : ∀ e : Clone, (e.reconcile now).job.status = .running ∨
      (e.reconcile now).job.status = .failed ∨ (e.reconcile now).job.status = .cancelled := by
    intro e
    change (if _ then _ else _) = _ ∨ (if _ then _ else _) = _ ∨ (if _ then _ else _) = _
    split_ifs
    · exact .inl rfl
    · exact .inr (.inl rfl)
    · exact .inr (.inr rfl)
  unfold Clone.finishReconcile
  dsimp only
  split_ifs <;> exact hreconcile _

theorem Clone.pagesMove_startReconcile (d : Clone) {phase : JobStatus} (hphase : phase ≠ .ingesting) :
    d.PagesMove phase (d.startReconcile now) := by
  rcases d.startReconcile_cases now with ⟨-, hpages⟩ | ⟨heq, -⟩
  · exact (d.pagesMove_cancelPages hphase).trans (.of_eq hpages)
  · exact .of_eq (congrArg Clone.pages heq)

/-- A step brings new targets, or leaves every page in its place. -/
theorem CaseStep.pagesMove (h : CaseStep env now action c c')
    (hnodup : (c.clone.pages.map SitePage.pageId).Nodup) :
    (∃ targets, c.clone.job.status = .ingesting ∧ c'.clone = c.clone.addTargets now targets) ∨
      c.clone.PagesMove c'.clone.job.status c'.clone := by
  cases h with
  | targetsAdded hlease =>
    exact .inl ⟨_, (Clone.isPhaseLeasedBy_iff.1 hlease).1, rfl⟩
  | same | cancelled | ingestionClaimed | phaseExtended | bundlePut | emptyFailed | assemblyClaimed
  | copied | verified | published | artifactClaimed | objectDeleted | artifactPostponed =>
    exact .inr (.of_eq rfl)
  | ingestionFinished => exact .inr (.of_eq (Clone.pages_finishIngestion _))
  | pagesReclaimed keys => exact .inr (Clone.pagesMove_reclaim _ keys)
  | @pageClaimed _ workerId _ d page hd hpage hclaimable =>
    obtain ⟨-, hqueued, -⟩ := Clone.isClaimable_iff.1 hclaimable
    rcases hd with rfl | ⟨keys, rfl⟩
    · exact .inr (Clone.pagesMove_claimPage hnodup hpage hqueued)
    · have hids : ((c.clone.reclaim now keys).pages.map SitePage.pageId).Nodup :=
        (Clone.sameKeys_reclaim keys c.clone).pages ▸ hnodup
      exact .inr ((Clone.pagesMove_reclaim _ keys).trans
        (Clone.pagesMove_claimPage hids hpage hqueued))
  | pageExtended =>
    exact .inr (Clone.pagesMove_update _ fun _ _ _ ↦ ⟨rfl, fun _ ↦ ⟨rfl, rfl⟩, .inl⟩)
  | pageCancelled hheld hstatus =>
    refine .inr (Clone.pagesMove_updateHeld _ _ _ (fun _ ↦ rfl) fun _ _ ↦ .inr ⟨?_, rfl⟩)
    change c.clone.job.status ≠ _
    rw [hstatus]
    decide
  | pageOverBudget messageId hheld hstatus _ =>
    refine .inr (Clone.PagesMove.trans (Clone.pagesMove_updateHeld c.clone _
      (SitePage.finish .failed "SITE_INPUT_BUDGET_EXCEEDED") (fun _ ↦ rfl) ?_)
      (.of_eq (Clone.pages_incrementJob _ messageId _ _)))
    intro page h
    cases h
  | @pageCompleted claim bucket bytes sha256 inputBytes _ messageId hheld hstatus hfits =>
    refine .inr (Clone.PagesMove.trans (Clone.pagesMove_updateHeld c.clone claim
      (SitePage.succeed now (claim.bundle bucket bytes sha256) inputBytes)
      (fun _ ↦ rfl) ?_) (.of_eq (Clone.pages_incrementJob _ messageId _ _)))
    intro page h
    cases h
  | pageFailed messageId => exact .inr (Clone.pagesMove_failPage _ messageId _ _)
  | staged hclaim honly h =>
    obtain ⟨added, rfl, -⟩ := h.rows
    exact .inr (.of_eq rfl)
  | restaged hverified h =>
    obtain ⟨added, rfl, -⟩ := h.rows
    exact .inr (.of_eq rfl)
  | ingestionRetried messageId | assemblyRetried messageId =>
    exact .inr (.of_eq (Clone.pages_abandonPhase _ messageId _ _))
  | reconcileStarted h =>
    right
    rcases c.clone.startReconcile_cases now with ⟨hstatus, -⟩ | ⟨heq, -⟩
    · refine Clone.pagesMove_startReconcile _ ?_
      change (c.clone.startReconcile now).job.status ≠ _
      rw [hstatus]
      decide
    · exact .of_eq (congrArg Clone.pages heq)
  | reconciled messageId h =>
    refine .inr (Clone.PagesMove.trans (Clone.pagesMove_startReconcile c.clone ?_)
      (.of_eq (Clone.pages_finishReconcile _ messageId)))
    change ((c.clone.startReconcile now).finishReconcile now messageId).job.status ≠ _
    rcases (c.clone.startReconcile now).finishReconcile_status now messageId with h | h | h <;>
      rw [h] <;> decide
  | bundleClaimed | bundleDeleted | bundlePostponed =>
    exact .inr (Clone.pagesMove_update _ fun _ _ _ ↦ ⟨rfl, fun _ ↦ ⟨rfl, rfl⟩, .inl⟩)
  | artifactDeleted messageId => exact .inr (.of_eq (Clone.pages_finishDeletion _ messageId _))

/-! ### The status of a job -/

theorem Clone.abandonPhase_status (now : Instant) (messageId : Uuid) (claim : ClaimedSitePhase)
    (code : String) (d : Clone) :
    (d.abandonPhase now messageId claim code).job.status = d.job.status ∨
      (d.abandonPhase now messageId claim code).job.status = .failed := by
  unfold Clone.abandonPhase Clone.retryPhase
  dsimp only
  split_ifs
  · exact .inr rfl
  · exact .inl rfl

theorem Clone.finishDeletion_status (now : Instant) (messageId artifactId : Uuid) (d : Clone) :
    (d.finishDeletion now messageId artifactId).job.status = d.job.status ∨
      (d.finishDeletion now messageId artifactId).job.status = .expired := by
  unfold Clone.finishDeletion
  dsimp only
  split_ifs
  · exact .inr rfl
  · exact .inl rfl

/-- Neither `INGESTING`, `ASSEMBLING`, `PUBLISHED` nor `PARTIAL`. -/
def JobStatus.isAside (status : JobStatus) : Prop :=
  status = .running ∨ status = .cancelRequested ∨ status = .failed ∨ status = .cancelled ∨
    status = .expired

/-- What a step makes of the status of a job: it stays, the assembly is claimed, the artifacts are
published, or the job leaves its phase. -/
theorem CaseStep.status_cases (h : CaseStep env now action c c') :
    c'.clone.job.status = c.clone.job.status ∨
    c'.clone.job.status = .assembling ∧ c'.clone.pages = c.clone.pages ∧
      c.clone.hasActivePage = false ∨
    c.clone.job.status = .assembling ∧ c'.clone.job.status = c.clone.terminalStatus ∧
      c'.clone.pages = c.clone.pages ∨
    c'.clone.job.status.isAside := by
  cases h with
  | same | phaseExtended | targetsAdded | pagesReclaimed | pageExtended | bundlePut | pageCancelled
  | copied | verified | artifactClaimed | bundleClaimed | objectDeleted | bundleDeleted
  | artifactPostponed | bundlePostponed => exact .inl rfl
  | cancelled => exact .inr (.inr (.inr (.inr (.inl rfl))))
  | emptyFailed => exact .inr (.inr (.inr (.inr (.inr (.inl rfl)))))
  | ingestionClaimed h => exact .inl (of_decide_eq_true (Bool.and_eq_true_iff.1 h).1).symm
  | ingestionFinished messageId hheld hstatus =>
    refine .inr (.inr (.inr ?_))
    change (c.clone.finishIngestion now).job.status.isAside
    unfold Clone.finishIngestion
    split_ifs
    · exact .inr (.inr (.inl rfl))
    · exact .inl rfl
  | pageClaimed hd hpage hclaimable =>
    left
    rcases hd with rfl | ⟨keys, rfl⟩ <;> rfl
  | pageOverBudget messageId | pageCompleted messageId =>
    left
    change (Clone.incrementJob now messageId _ _ _).job.status = _
    unfold Clone.incrementJob
    dsimp only
    split_ifs <;> rfl
  | pageFailed messageId =>
    left
    change (Clone.failPage now messageId _ _ _).job.status = _
    unfold Clone.failPage Clone.incrementJob
    dsimp only
    split_ifs <;> rfl
  | assemblyClaimed messageId h =>
    exact .inr (.inl ⟨rfl, rfl, (Clone.isAssemblable_iff.1 h).2.2.2.2⟩)
  | staged hclaim honly h =>
    obtain ⟨added, rfl, -⟩ := h.rows
    exact .inl rfl
  | restaged hverified h =>
    obtain ⟨added, rfl, -⟩ := h.rows
    exact .inl rfl
  | published messageId hrestaged hlease =>
    exact .inr (.inr (.inl ⟨(Clone.isPhaseLeasedBy_iff.1 hlease).1, rfl, rfl⟩))
  | ingestionRetried messageId | assemblyRetried messageId =>
    rcases c.clone.abandonPhase_status now messageId _ _ with heq | heq
    · exact .inl heq
    · exact .inr (.inr (.inr (.inr (.inr (.inl heq)))))
  | reconcileStarted h =>
    rcases c.clone.startReconcile_cases now with ⟨hstatus, -⟩ | ⟨heq, -⟩
    · exact .inr (.inr (.inr (.inr (.inl hstatus))))
    · exact .inl (congrArg (fun d : Clone ↦ d.job.status) heq)
  | reconciled messageId h =>
    refine .inr (.inr (.inr ?_))
    rcases (c.clone.startReconcile now).finishReconcile_status now messageId with h | h | h
    · exact .inl h
    · exact .inr (.inr (.inl h))
    · exact .inr (.inr (.inr (.inl h)))
  | artifactDeleted messageId hheld hrow =>
    rcases c.clone.finishDeletion_status now messageId _ with heq | heq
    · exact .inl heq
    · exact .inr (.inr (.inr (.inr (.inr (.inr (.inr heq))))))

/-! ### Jobs whose pages are over -/

/-- The page succeeded, or was rejected at ingestion, as its row has it. -/
def SitePage.isCloned (page : SitePage) : Prop :=
  page.status = .succeeded ∨ page.status = .cancelled ∧ page.failureCode ≠ some "CANCELLED"

/-- From the claim of its assembly on, a job has no active page; a page that ingestion rejects has
another code than one that is cancelled later; and the status of a published job tells whether all
its pages are cloned. -/
structure Clone.Settled (d : Clone) : Prop where
  ended : d.job.status = .assembling ∨ d.job.status.isPublished = true →
    ∀ page ∈ d.pages, page.status.isActive = false
  rejected : d.job.status = .ingesting → ∀ page ∈ d.pages, page.status = .cancelled →
    page.failureCode ≠ some "CANCELLED"
  published : d.job.status.isPublished = true →
    (d.job.status = .published ↔ ∀ page ∈ d.pages, page.isCloned)

theorem Clone.hasActivePage_iff {d : Clone} :
    d.hasActivePage = false ↔ ∀ page ∈ d.pages, page.status.isActive = false := by
  unfold Clone.hasActivePage
  rw [List.any_eq_false]
  exact forall₂_congr fun page _ ↦ Bool.not_eq_true _ ▸ Iff.rfl

/-- The status of a publication says whether every page is cloned. -/
theorem Clone.terminalStatus_cases {d : Clone} (hd : d.Accounted)
    (hover : ∀ page ∈ d.pages, page.status.isActive = false) :
    d.terminalStatus.isPublished = true ∧
      (d.terminalStatus = .published ↔ ∀ page ∈ d.pages, page.isCloned) := by
  have hzero : (0 < d.job.failedCount ∨ 0 < d.pages.countP (fun page ↦
      decide (page.status = .cancelled) && decide (page.failureCode = some "CANCELLED"))) ↔
      ∃ page ∈ d.pages, ¬ page.isCloned := by
    rw [hd.failed, Clone.pageCount, List.countP_pos_iff, List.countP_pos_iff]
    constructor
    · rintro (⟨page, hpage, hfailed⟩ | ⟨page, hpage, hcancelled⟩)
      · refine ⟨page, hpage, ?_⟩
        rw [decide_eq_true_eq] at hfailed
        rintro (h | ⟨h, -⟩) <;>
        · rw [hfailed] at h
          cases h
      · refine ⟨page, hpage, ?_⟩
        rw [Bool.and_eq_true, decide_eq_true_eq, decide_eq_true_eq] at hcancelled
        rintro (h | ⟨-, h⟩)
        · rw [hcancelled.1] at h
          cases h
        · exact h hcancelled.2
    · rintro ⟨page, hpage, hnot⟩
      have hactive := hover page hpage
      cases hstatus : page.status with
      | queued | rendering =>
        rw [hstatus] at hactive
        cases hactive
      | succeeded => exact absurd (.inl hstatus) hnot
      | failed => exact .inl ⟨page, hpage, decide_eq_true hstatus⟩
      | cancelled =>
        refine .inr ⟨page, hpage, ?_⟩
        rw [Bool.and_eq_true, decide_eq_true_eq, decide_eq_true_eq]
        by_contra h
        exact hnot (.inr ⟨hstatus, fun hcode ↦ h ⟨hstatus, hcode⟩⟩)
  unfold Clone.terminalStatus
  by_cases h : ∃ page ∈ d.pages, ¬ page.isCloned
  · rw [if_pos (hzero.2 h)]
    refine ⟨rfl, fun heq ↦ (by cases heq), fun hall ↦ ?_⟩
    obtain ⟨page, hpage, hnot⟩ := h
    exact absurd (hall page hpage) hnot
  · rw [if_neg (hzero.not.2 h)]
    refine ⟨rfl, fun _ page hpage ↦ ?_, fun _ ↦ rfl⟩
    by_contra hnot
    exact h ⟨page, hpage, hnot⟩

theorem newSiteJob_settled {hash : ByteString} {envelope : SiteCloneRequestedEnvelope} :
    Clone.Settled { job := newSiteJob now hash envelope } where
  ended _ page hpage := by cases hpage
  rejected _ page hpage := by cases hpage
  published h := by cases h

/-- The code of a page that a target brings is the reason of its rejection. -/
theorem SiteTargetInput.failureCode_ne (target : SiteTargetInput) :
    (target.page now).failureCode ≠ some "CANCELLED" := by
  intro hcode
  obtain ⟨reason, -, htext⟩ := Option.map_eq_some_iff.1 hcode
  exact reason.text_ne htext

theorem Clone.Settled.addTargets {d : Clone} (hd : d.Settled) (hstatus : d.job.status = .ingesting)
    (targets : List SiteTargetInput) : (d.addTargets now targets).Settled where
  ended h := by
    change d.job.status = _ ∨ d.job.status.isPublished = true at h
    rw [hstatus] at h
    rcases h with h | h <;> cases h
  rejected := by
    rintro -
    have hfold : ∀ pages : List SitePage,
        (∀ page ∈ pages, page.status = .cancelled → page.failureCode ≠ some "CANCELLED") →
        ∀ page ∈ targets.foldl (insertTarget now) pages, page.status = .cancelled →
          page.failureCode ≠ some "CANCELLED" := by
      induction targets with
      | nil => exact fun _ hpages ↦ hpages
      | cons target targets ih =>
        intro pages hpages
        rw [List.foldl_cons]
        refine ih _ fun page hpage hcancelled ↦ ?_
        unfold insertTarget at hpage
        split_ifs at hpage
        · exact hpages page hpage hcancelled
        · rcases List.mem_append.1 hpage with hpage | hpage
          · exact hpages page hpage hcancelled
          · obtain rfl := List.mem_singleton.1 hpage
            exact target.failureCode_ne
    exact hfold d.pages (hd.rejected hstatus)
  published h := by
    change d.job.status.isPublished = true at h
    rw [hstatus] at h
    cases h

theorem PageMove.isCloned_iff {phase : JobStatus} {page page' : SitePage}
    (h : PageMove phase page page') (hover : page.status.isActive = false) :
    page'.isCloned ↔ page.isCloned := by
  obtain ⟨hstatus, hcode⟩ := h.ended hover
  unfold SitePage.isCloned
  rw [hstatus, hcode]

theorem Clone.Settled.move {d d' : Clone} (hd : d.Settled)
    (hmove : d.PagesMove d'.job.status d') (hstatus : d'.job.status = d.job.status) :
    d'.Settled where
  ended h page' hpage' := by
    rw [hstatus] at h
    obtain ⟨page, hpage, hR⟩ := Table.exists_left_of_mem hmove hpage'
    rw [(hR.ended (hd.ended h page hpage)).1]
    exact hd.ended h page hpage
  rejected h page' hpage' hcancelled := by
    obtain ⟨page, hpage, hR⟩ := Table.exists_left_of_mem hmove hpage'
    rcases hR.cancelled hcancelled with hearlier | ⟨hphase, -⟩
    · rw [(hR.ended (by rw [hearlier]; rfl)).2]
      exact hd.rejected (hstatus ▸ h) page hpage hearlier
    · exact absurd h hphase
  published h := by
    rw [hstatus] at h ⊢
    rw [hd.published h]
    constructor
    · intro hall page' hpage'
      obtain ⟨page, hpage, hR⟩ := Table.exists_left_of_mem hmove hpage'
      exact (hR.isCloned_iff (hd.ended (.inr h) page hpage)).2 (hall page hpage)
    · intro hall page hpage
      obtain ⟨page', hpage', hR⟩ := Table.exists_right_of_mem hmove hpage
      exact (hR.isCloned_iff (hd.ended (.inr h) page hpage)).1 (hall page' hpage')

theorem CaseStep.settled (h : CaseStep env now action c c')
    (hnodup : (c.clone.pages.map SitePage.pageId).Nodup) (hc : c.clone.Accounted)
    (hsettled : c.clone.Settled) : c'.clone.Settled := by
  rcases h.pagesMove hnodup with ⟨targets, hstatus, heq⟩ | hmove
  · rw [heq]
    exact hsettled.addTargets hstatus targets
  rcases h.status_cases with hstatus | ⟨hstatus, hpages, hover⟩ | ⟨hstatus, hstatus', hpages⟩ | haside
  · exact hsettled.move hmove hstatus
  · rw [Clone.hasActivePage_iff] at hover
    refine ⟨fun _ ↦ hpages ▸ hover, fun h ↦ ?_, fun h ↦ ?_⟩
    · rw [hstatus] at h
      cases h
    · rw [hstatus] at h
      cases h
  · have hover := hsettled.ended (.inl hstatus)
    obtain ⟨hpublished, hiff⟩ := Clone.terminalStatus_cases hc hover
    refine ⟨fun _ ↦ hpages ▸ hover, fun h ↦ ?_, fun _ ↦ ?_⟩
    · rw [hstatus'] at h
      rw [h] at hpublished
      cases hpublished
    · rw [hstatus', hpages]
      exact hiff
  · refine ⟨fun h ↦ ?_, fun h ↦ ?_, fun h ↦ ?_⟩
    · rcases haside with h' | h' | h' | h' | h' <;> rw [h'] at h <;> rcases h with h | h <;> cases h
    · rcases haside with h' | h' | h' | h' | h' <;> rw [h'] at h <;> cases h
    · rcases haside with h' | h' | h' | h' | h' <;> rw [h'] at h <;> cases h

end WebLens.SiteClone
