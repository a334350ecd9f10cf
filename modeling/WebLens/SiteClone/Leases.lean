import WebLens.SiteClone.Pages

/-!
# Page leases of a case

What every step of a case keeps: the accounts of its job, and that every attempt of a page is a
claim that was given for it.
-/

set_option autoImplicit false
set_option relaxedAutoImplicit false

namespace WebLens.SiteClone

open Lib Lib.Utf8 Lib.Transaction
open Capture (Uuid Instant Duration minute)

variable {env : Env} {action : Action} {now : Instant} {c c' : Case}

/-! ### Claims -/

/-- The attempts of the pages are the claims that were given, which carry their number and the
limit of the policy. -/
structure Case.Claimed (c : Case) : Prop where
  page : ∀ claim ∈ c.pages, claim.pageId ∈ c.clone.pages.map SitePage.pageId
  attempt : ∀ claim ∈ c.pages, claim.attemptCount = claim.leaseGeneration
  maxRetries : ∀ claim ∈ c.pages, claim.maxRetries = c.clone.job.policy.maxRetriesPerPage
  count : ∀ page ∈ c.clone.pages,
    c.pages.countP (fun claim ↦ decide (claim.pageId = page.pageId)) = page.attemptCount

/-- A page that a worker holds, in its place. -/
theorem Clone.exists_held {d : Clone} {claim : ClaimedSitePage}
    (hnodup : (d.pages.map SitePage.pageId).Nodup) (hheld : d.isPageHeldBy claim = true) :
    ∃ before page after, d.pages = before ++ page :: after ∧ page.status = .rendering ∧
      page.pageId = claim.pageId ∧ page.leaseGeneration = claim.leaseGeneration ∧
      ∀ set, (d.updateHeld claim set).pages = before ++ set page :: after := by
  have hkey : ∀ page : SitePage, page.isHeldBy claim = true → page.pageId = claim.pageId ∧
      page.status = .rendering ∧ page.leaseGeneration = claim.leaseGeneration := by
    intro page h
    simp only [SitePage.isHeldBy, Bool.and_eq_true, decide_eq_true_eq] at h
    exact ⟨h.1.1.1, h.1.1.2, h.2⟩
  obtain ⟨page, hpage, hsel⟩ := List.any_eq_true.1 (Bool.and_eq_true_iff.1 hheld).2
  obtain ⟨hid, hstatus, hgeneration⟩ := hkey page hsel
  obtain ⟨before, after, hpages, hupdate⟩ := Table.update_eq_append hnodup hpage hsel
    fun other _ h ↦ (hkey other h).1.trans hid.symm
  exact ⟨before, page, after, hpages, hstatus, hid, hgeneration, hupdate⟩

/-- A queued page that a claim takes, in its place. -/
theorem Clone.exists_claimed (now : Instant) {d : Clone} {page : SitePage} (workerId : Uuid)
    (hnodup : (d.pages.map SitePage.pageId).Nodup) (hpage : page ∈ d.pages) :
    ∃ before after, d.pages = before ++ page :: after ∧
      (d.claimPage now workerId page.pageId).pages =
        before ++ page.claim now workerId :: after := by
  obtain ⟨before, after, hpages, hupdate⟩ := @Table.update_eq_append _ _
    (fun other ↦ decide (other.pageId = page.pageId)) _ _ hnodup _ hpage (decide_eq_true rfl)
    fun other _ h ↦ of_decide_eq_true h
  exact ⟨before, after, hpages, hupdate _⟩

theorem Clone.isClaimable_iff {d : Clone} {page : SitePage} : d.isClaimable now page = true ↔
    d.job.status = .running ∧ page.status = .queued ∧ page.availableAt ≤ now ∧
      d.pageCount .rendering < d.job.policy.pageConcurrency := by
  simp only [Clone.isClaimable, Bool.and_eq_true, decide_eq_true_eq, and_assoc]

/-- The claim of a held page is its last attempt. -/
theorem Case.Claimed.held (hclaimed : c.Claimed) (hc : c.clone.Accounted) {claim : ClaimedSitePage}
    (hclaim : claim ∈ c.pages) {page : SitePage} (hpage : page ∈ c.clone.pages)
    (hgeneration : page.leaseGeneration = claim.leaseGeneration) :
    claim.attemptCount = page.attemptCount := by
  rw [hclaimed.attempt claim hclaim, ← hgeneration, hc.generation page hpage]

/-! ### Accounts -/

/-- The work of a page that fails, with the counters of its job. -/
theorem Case.accounted_failPage (hc : c.clone.Accounted) (hclaimed : c.Claimed)
    (hnodup : (c.clone.pages.map SitePage.pageId).Nodup) {claim : ClaimedSitePage} {code : String}
    (messageId : Uuid) (hclaim : claim ∈ c.pages) (hheld : c.clone.isPageHeldBy claim = true) :
    (c.clone.failPage now messageId claim code).Accounted := by
  obtain ⟨before, page, after, hpages, hstatus, -, hgeneration, hupdate⟩ :=
    Clone.exists_held hnodup hheld
  have hpage : page ∈ c.clone.pages := hpages ▸ List.mem_append_right _ List.mem_cons_self
  have hbudget := hc.inputBytes ▸ hc.inputBytes_le
  unfold Clone.failPage
  dsimp only
  have hfail := hupdate (SitePage.fail now claim code)
  unfold SitePage.fail at hfail ⊢
  by_cases hretry : claim.attemptCount < claim.maxRetries
  · simp only [if_pos hretry] at hfail ⊢
    refine hc.end hpages hfail hstatus (fun h ↦ (by cases h)) rfl rfl (fun _ ↦ ?_) rfl rfl rfl rfl
      rfl hbudget
    rw [hclaimed.held hc hclaim hpage hgeneration, hclaimed.maxRetries claim hclaim] at hretry
    exact hretry
  · simp only [if_neg hretry] at hfail ⊢
    refine Clone.Accounted.same ?_ (Clone.sameWork_incrementJob _ messageId false 0)
    exact hc.end hpages hfail hstatus (fun h ↦ (by cases h)) rfl rfl (fun h ↦ (by cases h)) rfl rfl
      rfl rfl rfl hbudget

theorem CaseStep.accounted (h : CaseStep env now action c c') (hc : c.clone.Accounted)
    (hclaimed : c.Claimed) (hnodup : (c.clone.pages.map SitePage.pageId).Nodup) :
    c'.clone.Accounted := by
  have hbudget := hc.inputBytes ▸ hc.inputBytes_le
  cases h with
  | same | bundlePut | copied | verified | objectDeleted => exact hc
  | cancelled | ingestionClaimed | phaseExtended | artifactClaimed | artifactPostponed =>
    exact hc.same ⟨rfl, rfl, rfl, rfl, rfl, rfl⟩
  | targetsAdded hlease => exact hc.addTargets _
  | ingestionFinished messageId hheld hstatus =>
    exact hc.same ((Clone.sameWork_finishIngestion _).trans (Clone.sameWork_withEvent _ _ _))
  | pagesReclaimed keys => exact hc.reclaim now keys
  | @pageClaimed _ workerId _ d page hd hpage hclaimable =>
    have hd' : d.Accounted ∧ (d.pages.map SitePage.pageId).Nodup := by
      rcases hd with rfl | ⟨keys, rfl⟩
      · exact ⟨hc, hnodup⟩
      · exact ⟨hc.reclaim now keys, (Clone.sameKeys_reclaim keys c.clone).pages ▸ hnodup⟩
    obtain ⟨-, hstatus, -, hfree⟩ := Clone.isClaimable_iff.1 hclaimable
    obtain ⟨before, after, hpages, hupdate⟩ :=
      Clone.exists_claimed now workerId hd'.2 hpage
    exact hd'.1.claim hpages hupdate rfl hstatus rfl rfl rfl hfree
  | pageExtended hheld => exact hc.same ⟨rfl, rfl, rfl, rfl, rfl, Table.map_update _ fun _ _ _ ↦ rfl⟩
  | pageCancelled hheld hstatus =>
    obtain ⟨before, page, after, hpages, hrendering, -, -, hupdate⟩ :=
      Clone.exists_held hnodup hheld
    exact hc.end hpages (hupdate _) hrendering (fun h ↦ (by cases h)) rfl rfl
      (fun h ↦ (by cases h)) rfl rfl rfl rfl rfl hbudget
  | pageOverBudget messageId hheld hstatus _ =>
    obtain ⟨before, page, after, hpages, hrendering, -, -, hupdate⟩ :=
      Clone.exists_held hnodup hheld
    refine Clone.Accounted.same ?_ (Clone.sameWork_incrementJob _ messageId false 0)
    exact hc.end hpages (hupdate _) hrendering (fun h ↦ (by cases h)) rfl rfl
      (fun h ↦ (by cases h)) rfl rfl rfl rfl rfl hbudget
  | pageCompleted messageId hheld hstatus hfits =>
    obtain ⟨before, page, after, hpages, hrendering, -, -, hupdate⟩ :=
      Clone.exists_held hnodup hheld
    refine Clone.Accounted.same ?_ (Clone.sameWork_incrementJob _ messageId true _)
    exact hc.end hpages (hupdate _) hrendering (fun h ↦ (by cases h)) rfl rfl
      (fun h ↦ (by cases h)) rfl rfl rfl rfl rfl hfits
  | pageFailed messageId hclaim hheld =>
    exact Case.accounted_failPage hc hclaimed hnodup messageId hclaim hheld
  | emptyFailed messageId h => exact hc.same ⟨rfl, rfl, rfl, rfl, rfl, rfl⟩
  | assemblyClaimed messageId h => exact hc.same ⟨rfl, rfl, rfl, rfl, rfl, rfl⟩
  | staged hclaim honly h =>
    obtain ⟨added, rfl, -⟩ := h.rows
    exact hc.same ⟨rfl, rfl, rfl, rfl, rfl, rfl⟩
  | restaged hverified h =>
    obtain ⟨added, rfl, -⟩ := h.rows
    exact hc.same ⟨rfl, rfl, rfl, rfl, rfl, rfl⟩
  | published messageId hrestaged hlease => exact hc.same ⟨rfl, rfl, rfl, rfl, rfl, rfl⟩
  | ingestionRetried messageId hheld hstatus =>
    exact hc.same (Clone.sameWork_abandonPhase _ messageId _ _)
  | assemblyRetried messageId hheld hstatus =>
    exact hc.same (Clone.sameWork_abandonPhase _ messageId _ _)
  | reconcileStarted h => exact hc.startReconcile
  | reconciled messageId h => exact hc.startReconcile.finishReconcile messageId
  | bundleClaimed | bundleDeleted | bundlePostponed =>
    exact hc.same ⟨rfl, rfl, rfl, rfl, rfl, Table.map_update _ fun _ _ _ ↦ rfl⟩
  | artifactDeleted messageId hheld hrow =>
    exact hc.same (Clone.sameWork_finishDeletion _ messageId _)

/-! ### Attempts -/

/-- A page with the number of its attempts. -/
def SitePage.attempts (page : SitePage) : Uuid × ℕ :=
  (page.pageId, page.attemptCount)

/-- The clones agree in their policy and in the attempts of their pages. -/
structure Clone.SameAttempts (d d' : Clone) : Prop where
  policy : d'.job.policy = d.job.policy
  attempts : d'.pages.map SitePage.attempts = d.pages.map SitePage.attempts

theorem Clone.SameAttempts.trans {d d' d'' : Clone} (h : d.SameAttempts d')
    (h' : d'.SameAttempts d'') : d.SameAttempts d'' :=
  ⟨h'.policy.trans h.policy, h'.attempts.trans h.attempts⟩

theorem Clone.SameWork.sameAttempts {d d' : Clone} (h : d.SameWork d') : d.SameAttempts d' where
  policy := h.policy
  attempts := by
    have hattempts : ∀ e : Clone, e.pages.map SitePage.attempts =
        (e.pages.map SitePage.progress).map fun p ↦ (p.pageId, p.attemptCount) := by
      intro e
      rw [List.map_map]
      rfl
    rw [hattempts, hattempts, h.pages]

theorem Clone.SameAttempts.incrementJob {d d' : Clone} (h : d.SameAttempts d') (messageId : Uuid)
    (succeeded : Bool) (inputBytes : ℕ) :
    d.SameAttempts (d'.incrementJob now messageId succeeded inputBytes) := by
  have hincrement : d.SameAttempts (d'.increment now succeeded inputBytes) :=
    ⟨h.policy, h.attempts⟩
  exact hincrement.trans (d'.sameWork_incrementJob messageId succeeded inputBytes).sameAttempts

theorem Clone.sameAttempts_reclaim (d : Clone) (keys : List PageKey) :
    d.SameAttempts (d.reclaim now keys) := by
  refine ⟨rfl, Table.map_update _ fun page _ _ ↦ ?_⟩
  unfold SitePage.reclaim
  split_ifs <;> rfl

theorem Clone.sameAttempts_failPage (d : Clone) (messageId : Uuid) (claim : ClaimedSitePage)
    (code : String) : d.SameAttempts (d.failPage now messageId claim code) := by
  have hfail : d.SameAttempts (d.updateHeld claim (SitePage.fail now claim code)) := by
    refine ⟨rfl, Table.map_update _ fun page _ _ ↦ ?_⟩
    unfold SitePage.fail
    split_ifs <;> rfl
  unfold Clone.failPage
  dsimp only
  split_ifs
  · exact hfail
  · exact hfail.incrementJob messageId false 0

theorem Clone.sameAttempts_startReconcile (d : Clone) : d.SameAttempts (d.startReconcile now) := by
  have hcancelled : d.SameAttempts (if d.isOverdue now then d.exceedDeadline now else d) := by
    split_ifs <;> exact ⟨rfl, rfl⟩
  unfold Clone.startReconcile
  generalize (if d.isOverdue now then d.exceedDeadline now else d) = cancelled at hcancelled ⊢
  dsimp only
  split_ifs
  · exact hcancelled.trans ⟨rfl, Table.map_update _ fun _ _ _ ↦ rfl⟩
  · exact hcancelled

theorem Clone.sameAttempts_finishReconcile (d : Clone) (messageId : Uuid) :
    d.SameAttempts (d.finishReconcile now messageId) := by
  unfold Clone.finishReconcile
  dsimp only
  split_ifs <;> exact ⟨rfl, rfl⟩

/-- Without a new claim, the claims go over with the attempts. -/
theorem Case.Claimed.same (hc : c.Claimed) (hpages : c'.pages = c.pages)
    (h : c.clone.SameAttempts c'.clone) : c'.Claimed where
  page := by
    have hids : ∀ d : Clone, d.pages.map SitePage.pageId =
        (d.pages.map SitePage.attempts).map Prod.fst := by
      intro d
      rw [List.map_map]
      rfl
    rw [hpages, hids, h.attempts, ← hids]
    exact hc.page
  attempt := hpages ▸ hc.attempt
  maxRetries := by
    rw [hpages, h.policy]
    exact hc.maxRetries
  count := by
    intro page' hpage'
    have hmem := h.attempts ▸ List.mem_map_of_mem (f := SitePage.attempts) hpage'
    obtain ⟨page, hpage, heq⟩ := List.mem_map.1 hmem
    obtain ⟨hid, hcount⟩ := Prod.mk.inj heq
    rw [hpages, ← hid, ← hcount]
    exact hc.count page hpage

/-- New targets were never attempted. -/
theorem Case.Claimed.addTargets (hc : c.Claimed) (targets : List SiteTargetInput) :
    (c.set (c.clone.addTargets now targets)).Claimed := by
  have hpages : ∀ pages : List SitePage,
      (∀ claim ∈ c.pages, claim.pageId ∈ pages.map SitePage.pageId) →
      (∀ page ∈ pages,
        c.pages.countP (fun claim ↦ decide (claim.pageId = page.pageId)) = page.attemptCount) →
      (∀ claim ∈ c.pages,
        claim.pageId ∈ (targets.foldl (insertTarget now) pages).map SitePage.pageId) ∧
      ∀ page ∈ targets.foldl (insertTarget now) pages,
        c.pages.countP (fun claim ↦ decide (claim.pageId = page.pageId)) = page.attemptCount := by
    induction targets with
    | nil => exact fun pages hids hcount ↦ ⟨hids, hcount⟩
    | cons target targets ih =>
      intro pages hids hcount
      rw [List.foldl_cons]
      refine ih _ (fun claim hclaim ↦ ?_) fun page hpage ↦ ?_
      · unfold insertTarget
        split_ifs
        · exact hids claim hclaim
        · rw [List.map_append]
          exact List.mem_append_left _ (hids claim hclaim)
      · unfold insertTarget at hpage
        split_ifs at hpage with hconflict
        · exact hcount page hpage
        · rcases List.mem_append.1 hpage with hpage | hpage
          · exact hcount page hpage
          · obtain rfl := List.mem_singleton.1 hpage
            refine List.countP_eq_zero.2 fun claim hclaim heq ↦ hconflict ?_
            obtain ⟨other, hother, hid⟩ := List.mem_map.1 (hids claim hclaim)
            refine List.any_eq_true.2 ⟨other, hother, ?_⟩
            unfold SitePage.conflicts
            rw [hid, of_decide_eq_true heq]
            simp [SiteTargetInput.page]
  obtain ⟨hids, hcount⟩ := hpages c.clone.pages hc.page hc.count
  exact ⟨hids, hc.attempt, hc.maxRetries, hcount⟩

/-- A claim of a page is one more attempt. -/
theorem Case.Claimed.claim (hc : c.Claimed) {d : Clone} {page : SitePage} {workerId : Uuid}
    (hd : d.Accounted) (hsame : c.clone.SameAttempts d) (hpage : page ∈ d.pages) :
    Case.Claimed { c with
      clone := d.claimPage now workerId page.pageId
      pages := d.claimedPage workerId page :: c.pages } := by
  have hcd : (c.set d).Claimed := hc.same rfl hsame
  have hids : (d.claimPage now workerId page.pageId).pages.map SitePage.pageId =
      d.pages.map SitePage.pageId := Table.map_update _ fun _ _ _ ↦ rfl
  constructor
  · intro claim hclaim
    dsimp only at hclaim ⊢
    rw [hids]
    rcases List.mem_cons.1 hclaim with rfl | hclaim
    · exact List.mem_map_of_mem hpage
    · exact hcd.page claim hclaim
  · intro claim hclaim
    rcases List.mem_cons.1 hclaim with rfl | hclaim
    · exact congrArg (· + 1) (hd.generation page hpage).symm
    · exact hcd.attempt claim hclaim
  · intro claim hclaim
    rcases List.mem_cons.1 hclaim with rfl | hclaim
    · rfl
    · exact hcd.maxRetries claim hclaim
  · intro page' hpage'
    obtain ⟨other, hother, rfl⟩ := Table.mem_update.1 hpage'
    have hcount := hcd.count other hother
    change c.pages.countP _ = _ at hcount
    dsimp only
    by_cases hid : other.pageId = page.pageId
    · rw [if_pos (decide_eq_true hid), List.countP_cons]
      exact congrArg₂ (· + ·) hcount (if_pos (decide_eq_true hid.symm))
    · rw [if_neg (by rwa [decide_eq_true_eq]), List.countP_cons]
      exact congrArg₂ (· + ·) hcount (if_neg fun h ↦ hid (of_decide_eq_true h).symm)

theorem CaseStep.claimed (h : CaseStep env now action c c') (hc : c.clone.Accounted)
    (hclaimed : c.Claimed) : c'.Claimed := by
  cases h with
  | same => exact hclaimed
  | bundlePut | copied | verified | objectDeleted | cancelled | ingestionClaimed | phaseExtended
  | artifactClaimed | artifactPostponed | emptyFailed | assemblyClaimed | published =>
    exact hclaimed.same rfl ⟨rfl, rfl⟩
  | targetsAdded hlease => exact hclaimed.addTargets _
  | ingestionFinished messageId hheld hstatus =>
    exact hclaimed.same rfl ((Clone.sameWork_finishIngestion _).trans
      (Clone.sameWork_withEvent _ _ _)).sameAttempts
  | pagesReclaimed keys => exact hclaimed.same rfl (Clone.sameAttempts_reclaim _ keys)
  | @pageClaimed _ workerId _ d page hd hpage hclaimable =>
    rcases hd with rfl | ⟨keys, rfl⟩
    · exact hclaimed.claim hc ⟨rfl, rfl⟩ hpage
    · exact hclaimed.claim (hc.reclaim now keys) (Clone.sameAttempts_reclaim _ keys) hpage
  | pageExtended | pageCancelled | bundleClaimed | bundleDeleted | bundlePostponed =>
    exact hclaimed.same rfl ⟨rfl, Table.map_update _ fun _ _ _ ↦ rfl⟩
  | pageOverBudget messageId | pageCompleted messageId =>
    refine hclaimed.same rfl (Clone.SameAttempts.incrementJob ?_ messageId _ _)
    exact ⟨rfl, Table.map_update _ fun _ _ _ ↦ rfl⟩
  | pageFailed messageId hclaim hheld =>
    exact hclaimed.same rfl (Clone.sameAttempts_failPage _ messageId _ _)
  | staged hclaim honly h =>
    obtain ⟨added, rfl, -⟩ := h.rows
    exact hclaimed.same rfl ⟨rfl, rfl⟩
  | restaged hverified h =>
    obtain ⟨added, rfl, -⟩ := h.rows
    exact hclaimed.same rfl ⟨rfl, rfl⟩
  | ingestionRetried messageId | assemblyRetried messageId =>
    exact hclaimed.same rfl (Clone.sameWork_abandonPhase _ messageId _ _).sameAttempts
  | reconcileStarted h => exact hclaimed.same rfl (Clone.sameAttempts_startReconcile _)
  | reconciled messageId h =>
    exact hclaimed.same rfl ((Clone.sameAttempts_startReconcile _).trans
      (Clone.sameAttempts_finishReconcile _ messageId))
  | artifactDeleted messageId hheld hrow =>
    exact hclaimed.same rfl (Clone.sameWork_finishDeletion _ messageId _).sameAttempts

end WebLens.SiteClone
