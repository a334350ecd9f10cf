import WebLens.SiteClone.Refinement

/-!
# Pages, counters and limits of a case

The counters of a job are recounts of its pages, a page is attempted once for every claim, and the
limits of the policy hold: of the pages rendered at once, of the attempts, and of the input bytes.
-/

set_option autoImplicit false
set_option relaxedAutoImplicit false

namespace WebLens.SiteClone

open Lib Lib.Utf8 Lib.Transaction
open Capture (Uuid Instant Duration minute)

variable {env : Env} {action : Action} {now : Instant} {c c' : Clone}

/-! ### What counts of a page -/

/-- What the counters and the limits of a job depend on in a page. -/
structure PageProgress where
  pageId : Uuid
  status : PageStatus
  attemptCount : ℕ
  leaseGeneration : ℕ
  inputBytes : ℕ
  failureCode : Option String

/-- The progress of a page. -/
def SitePage.progress (page : SitePage) : PageProgress where
  pageId := page.pageId
  status := page.status
  attemptCount := page.attemptCount
  leaseGeneration := page.leaseGeneration
  inputBytes := page.inputBytes
  failureCode := page.failureCode

/-- The clones agree in their policy, their counters and the progress of their pages. -/
structure Clone.SameWork (c c' : Clone) : Prop where
  policy : c'.job.policy = c.job.policy
  processed : c'.job.processedCount = c.job.processedCount
  succeeded : c'.job.succeededCount = c.job.succeededCount
  failed : c'.job.failedCount = c.job.failedCount
  inputBytes : c'.job.inputBytes = c.job.inputBytes
  pages : c'.pages.map SitePage.progress = c.pages.map SitePage.progress

theorem Clone.SameWork.refl (c : Clone) : c.SameWork c :=
  ⟨rfl, rfl, rfl, rfl, rfl, rfl⟩

theorem Clone.SameWork.trans {c'' : Clone} (h : c.SameWork c') (h' : c'.SameWork c'') :
    c.SameWork c'' where
  policy := h'.policy.trans h.policy
  processed := h'.processed.trans h.processed
  succeeded := h'.succeeded.trans h.succeeded
  failed := h'.failed.trans h.failed
  inputBytes := h'.inputBytes.trans h.inputBytes
  pages := h'.pages.trans h.pages

theorem Clone.SameWork.pageCount (h : c.SameWork c') (status : PageStatus) :
    c'.pageCount status = c.pageCount status := by
  have hcount : ∀ d : Clone, d.pageCount status = (d.pages.map SitePage.progress).countP
      fun progress ↦ decide (progress.status = status) := by
    intro d
    rw [List.countP_map]
    rfl
  rw [hcount, hcount, h.pages]

theorem Clone.SameWork.succeededBytes (h : c.SameWork c') :
    c'.succeededBytes = c.succeededBytes := by
  have hsum : ∀ d : Clone, d.succeededBytes = (((d.pages.map SitePage.progress).filter
      fun progress ↦ decide (progress.status = .succeeded)).map PageProgress.inputBytes).sum := by
    intro d
    rw [List.filter_map, List.map_map]
    rfl
  rw [hsum, hsum, h.pages]

/-- What holds of the progress of every page goes over. -/
theorem Clone.SameWork.forall {P : PageProgress → Prop} (h : c.SameWork c')
    (hc : ∀ page ∈ c.pages, P page.progress) : ∀ page ∈ c'.pages, P page.progress := by
  intro page' hpage'
  have hmem := h.pages ▸ List.mem_map_of_mem (f := SitePage.progress) hpage'
  obtain ⟨page, hpage, heq⟩ := List.mem_map.1 hmem
  exact heq ▸ hc page hpage

/-! ### The accounts of a job -/

/-- The counters are recounts, and the limits of the policy hold. -/
structure Clone.Accounted (c : Clone) : Prop where
  valid : c.job.policy.isValid = true
  processed : c.job.processedCount = c.pageCount .succeeded + c.pageCount .failed
  succeeded : c.job.succeededCount = c.pageCount .succeeded
  failed : c.job.failedCount = c.pageCount .failed
  inputBytes : c.job.inputBytes = c.succeededBytes
  inputBytes_le : c.succeededBytes ≤ c.job.policy.maxInputBytes
  rendering_le : c.pageCount .rendering ≤ c.job.policy.pageConcurrency
  generation : ∀ page ∈ c.pages, page.leaseGeneration = page.attemptCount
  attempts_le : ∀ page ∈ c.pages, page.attemptCount ≤ c.job.policy.maxRetriesPerPage
  attempts_lt : ∀ page ∈ c.pages, page.status = .queued →
    page.attemptCount < c.job.policy.maxRetriesPerPage

theorem Clone.Accounted.same (hc : c.Accounted) (h : c.SameWork c') : c'.Accounted where
  valid := h.policy ▸ hc.valid
  processed := by
    rw [h.processed, h.pageCount, h.pageCount]
    exact hc.processed
  succeeded := by
    rw [h.succeeded, h.pageCount]
    exact hc.succeeded
  failed := by
    rw [h.failed, h.pageCount]
    exact hc.failed
  inputBytes := by
    rw [h.inputBytes, h.succeededBytes]
    exact hc.inputBytes
  inputBytes_le := by
    rw [h.policy, h.succeededBytes]
    exact hc.inputBytes_le
  rendering_le := by
    rw [h.policy, h.pageCount]
    exact hc.rendering_le
  generation := h.forall (P := fun p ↦ p.leaseGeneration = p.attemptCount) hc.generation
  attempts_le := by
    rw [h.policy]
    exact h.forall (P := fun p ↦ p.attemptCount ≤ c.job.policy.maxRetriesPerPage) hc.attempts_le
  attempts_lt := by
    rw [h.policy]
    exact h.forall (P := fun p ↦ p.status = .queued →
      p.attemptCount < c.job.policy.maxRetriesPerPage) hc.attempts_lt

theorem newSiteJob_accounted {hash : ByteString} {envelope : SiteCloneRequestedEnvelope}
    (h : envelope.payload.policy.isValid = true) :
    Clone.Accounted { job := newSiteJob now hash envelope } where
  valid := h
  processed := rfl
  succeeded := rfl
  failed := rfl
  inputBytes := rfl
  inputBytes_le := Nat.zero_le _
  rendering_le := Nat.zero_le _
  generation _ h := by cases h
  attempts_le _ h := by cases h
  attempts_lt _ h := by cases h

theorem SiteClonePolicy.one_le_maxRetriesPerPage {policy : SiteClonePolicy}
    (h : policy.isValid = true) : 1 ≤ policy.maxRetriesPerPage := by
  simp only [SiteClonePolicy.isValid, Bool.and_eq_true, decide_eq_true_eq] at h
  exact h.1.1.1.2.1

/-- A page that is appended and was never attempted changes no account. -/
theorem Clone.Accounted.concat (hc : c.Accounted) {page : SitePage}
    (hstatus : page.status = .queued ∨ page.status = .cancelled) (hattempts : page.attemptCount = 0)
    (hgeneration : page.leaseGeneration = 0) :
    Clone.Accounted { c with pages := c.pages ++ [page] } := by
  have hcount : ∀ status, status ≠ .queued → status ≠ .cancelled →
      Clone.pageCount status { c with pages := c.pages ++ [page] } = c.pageCount status := by
    intro status hqueued hcancelled
    have hne : page.status ≠ status := by
      rcases hstatus with h | h <;> rw [h]
      · exact hqueued.symm
      · exact hcancelled.symm
    simp [Clone.pageCount, List.countP_append, hne]
  have hsucceeded : page.status ≠ .succeeded := by
    rcases hstatus with h | h <;> rw [h] <;> decide
  have hbytes : Clone.succeededBytes { c with pages := c.pages ++ [page] } = c.succeededBytes := by
    simp [Clone.succeededBytes, List.filter_append, hsucceeded]
  have hmem : ∀ {other : SitePage}, other ∈ c.pages ++ [page] → other ∈ c.pages ∨ other = page := by
    intro other hother
    rwa [List.mem_append, List.mem_singleton] at hother
  constructor
  · exact hc.valid
  · rw [hcount _ (by decide) (by decide), hcount _ (by decide) (by decide)]
    exact hc.processed
  · rw [hcount _ (by decide) (by decide)]
    exact hc.succeeded
  · rw [hcount _ (by decide) (by decide)]
    exact hc.failed
  · rw [hbytes]
    exact hc.inputBytes
  · rw [hbytes]
    exact hc.inputBytes_le
  · rw [hcount _ (by decide) (by decide)]
    exact hc.rendering_le
  · intro other hother
    rcases hmem hother with hother | rfl
    · exact hc.generation other hother
    · rw [hattempts, hgeneration]
  · intro other hother
    rcases hmem hother with hother | rfl
    · exact hc.attempts_le other hother
    · rw [hattempts]
      exact Nat.zero_le _
  · intro other hother hqueued
    rcases hmem hother with hother | rfl
    · exact hc.attempts_lt other hother hqueued
    · rw [hattempts]
      exact SiteClonePolicy.one_le_maxRetriesPerPage hc.valid

theorem Clone.Accounted.addTargets (hc : c.Accounted) (targets : List SiteTargetInput) :
    (c.addTargets now targets).Accounted := by
  unfold Clone.addTargets
  induction targets generalizing c with
  | nil => exact hc
  | cons target targets ih =>
    rw [List.foldl_cons]
    unfold insertTarget
    split_ifs with hconflict
    · exact ih hc
    · refine ih (hc.concat ?_ rfl rfl)
      change (if _ then _ else _) = _ ∨ (if _ then _ else _) = _
      split_ifs
      · exact .inr rfl
      · exact .inl rfl

/-! ### A page that changes -/

variable {before after : List SitePage} {page page' : SitePage}

theorem Clone.pageCount_append (h : c.pages = before ++ page :: after) (status : PageStatus) :
    c.pageCount status = Clone.pageCount status { c with pages := before ++ after } +
      if page.status = status then 1 else 0 := by
  simp only [Clone.pageCount, h, List.countP_append, List.countP_cons, decide_eq_true_eq]
  exact (Nat.add_assoc _ _ _).symm

theorem Clone.succeededBytes_append (h : c.pages = before ++ page :: after) :
    c.succeededBytes = Clone.succeededBytes { c with pages := before ++ after } +
      if page.status = .succeeded then page.inputBytes else 0 := by
  simp only [Clone.succeededBytes, h, List.filter_append, List.filter_cons, List.map_append,
    List.sum_append, decide_eq_true_eq]
  split_ifs
  · rw [List.map_cons, List.sum_cons]
    omega
  · exact (Nat.add_zero _).symm

/-- The rows that stay, and the row that a change leaves. -/
theorem forall_mem_middle {P : SitePage → Prop} (h : ∀ other ∈ before ++ page :: after, P other)
    (hpage' : P page') : ∀ other ∈ before ++ page' :: after, P other := by
  intro other hother
  rw [List.mem_append, List.mem_cons] at hother
  rcases hother with hother | rfl | hother
  · exact h other (List.mem_append_left _ hother)
  · exact hpage'
  · exact h other (List.mem_append_right _ (List.mem_cons_of_mem _ hother))

/-- A rendering page that ends, or that goes back to the queue, with the counters in step. -/
theorem Clone.Accounted.end (hc : c.Accounted) (hpages : c.pages = before ++ page :: after)
    (hpages' : c'.pages = before ++ page' :: after) (hstatus : page.status = .rendering)
    (hstatus' : page'.status ≠ .rendering) (hattempts : page'.attemptCount = page.attemptCount)
    (hgeneration : page'.leaseGeneration = page.leaseGeneration)
    (hqueued : page'.status = .queued → page'.attemptCount < c.job.policy.maxRetriesPerPage)
    (hpolicy : c'.job.policy = c.job.policy)
    (hprocessed : c'.job.processedCount = c.job.processedCount +
      ((if page'.status = .succeeded then 1 else 0) + if page'.status = .failed then 1 else 0))
    (hsucceeded : c'.job.succeededCount =
      c.job.succeededCount + if page'.status = .succeeded then 1 else 0)
    (hfailed : c'.job.failedCount =
      c.job.failedCount + if page'.status = .failed then 1 else 0)
    (hbytes : c'.job.inputBytes =
      c.job.inputBytes + if page'.status = .succeeded then page'.inputBytes else 0)
    (hbudget : c'.job.inputBytes ≤ c.job.policy.maxInputBytes) : c'.Accounted := by
  have hrest : ∀ status, Clone.pageCount status { c' with pages := before ++ after } =
      Clone.pageCount status { c with pages := before ++ after } := fun _ ↦ rfl
  have hbytesRest : Clone.succeededBytes { c' with pages := before ++ after } =
      Clone.succeededBytes { c with pages := before ++ after } := rfl
  have hcount : ∀ status, status ≠ .rendering → c'.pageCount status =
      c.pageCount status + if page'.status = status then 1 else 0 := by
    intro status hne
    rw [Clone.pageCount_append hpages', Clone.pageCount_append hpages, hrest, hstatus,
      if_neg hne.symm]
    rfl
  have hsum : c'.succeededBytes =
      c.succeededBytes + if page'.status = .succeeded then page'.inputBytes else 0 := by
    rw [Clone.succeededBytes_append hpages', Clone.succeededBytes_append hpages, hbytesRest,
      hstatus, if_neg (show PageStatus.rendering ≠ .succeeded by decide)]
    rfl
  have hinput : c'.job.inputBytes = c'.succeededBytes := by
    rw [hbytes, hsum, hc.inputBytes]
  constructor
  · rw [hpolicy]
    exact hc.valid
  · rw [hprocessed, hcount _ (by decide), hcount _ (by decide), hc.processed]
    omega
  · rw [hsucceeded, hcount _ (by decide), hc.succeeded]
  · rw [hfailed, hcount _ (by decide), hc.failed]
  · exact hinput
  · rw [← hinput, hpolicy]
    exact hbudget
  · have hle := hc.rendering_le
    rw [Clone.pageCount_append hpages, ← hrest] at hle
    rw [Clone.pageCount_append hpages', if_neg hstatus', hpolicy]
    exact (Nat.le_add_right _ _).trans hle
  · rw [hpages']
    refine forall_mem_middle (hpages ▸ hc.generation) ?_
    rw [hattempts, hgeneration]
    exact hc.generation page (hpages ▸ List.mem_append_right _ List.mem_cons_self)
  · rw [hpages', hpolicy]
    refine forall_mem_middle (hpages ▸ hc.attempts_le) ?_
    rw [hattempts]
    exact hc.attempts_le page (hpages ▸ List.mem_append_right _ List.mem_cons_self)
  · rw [hpages', hpolicy]
    exact forall_mem_middle (hpages ▸ hc.attempts_lt) hqueued

/-- A queued page that is claimed, while fewer pages are rendered than may be. -/
theorem Clone.Accounted.claim (hc : c.Accounted) (hpages : c.pages = before ++ page :: after)
    (hpages' : c'.pages = before ++ page' :: after) (hjob : c'.job = c.job)
    (hstatus : page.status = .queued) (hstatus' : page'.status = .rendering)
    (hattempts : page'.attemptCount = page.attemptCount + 1)
    (hgeneration : page'.leaseGeneration = page.leaseGeneration + 1)
    (hfree : c.pageCount .rendering < c.job.policy.pageConcurrency) : c'.Accounted := by
  have hmem : page ∈ c.pages := hpages ▸ List.mem_append_right _ List.mem_cons_self
  have hrest : ∀ status, Clone.pageCount status { c' with pages := before ++ after } =
      Clone.pageCount status { c with pages := before ++ after } := fun _ ↦ rfl
  have hcount : ∀ status, status ≠ .queued → status ≠ .rendering →
      c'.pageCount status = c.pageCount status := by
    intro status hqueued hrendering
    rw [Clone.pageCount_append hpages', Clone.pageCount_append hpages, hrest, hstatus, hstatus',
      if_neg hqueued.symm, if_neg hrendering.symm]
  have hsum : c'.succeededBytes = c.succeededBytes := by
    rw [Clone.succeededBytes_append hpages', Clone.succeededBytes_append hpages, hstatus, hstatus',
      if_neg (by decide), if_neg (by decide)]
    rfl
  have hqueued := hc.attempts_lt page hmem hstatus
  constructor
  · rw [hjob]
    exact hc.valid
  · rw [hjob, hcount _ (by decide) (by decide), hcount _ (by decide) (by decide)]
    exact hc.processed
  · rw [hjob, hcount _ (by decide) (by decide)]
    exact hc.succeeded
  · rw [hjob, hcount _ (by decide) (by decide)]
    exact hc.failed
  · rw [hjob, hsum]
    exact hc.inputBytes
  · rw [hjob, hsum]
    exact hc.inputBytes_le
  · rw [Clone.pageCount_append hpages, hstatus, if_neg (by decide)] at hfree
    rw [Clone.pageCount_append hpages', hstatus', if_pos rfl, hjob]
    exact hfree
  · rw [hpages']
    refine forall_mem_middle (hpages ▸ hc.generation) ?_
    rw [hattempts, hgeneration, hc.generation page hmem]
  · rw [hpages', hjob]
    refine forall_mem_middle (hpages ▸ hc.attempts_le) ?_
    rw [hattempts]
    exact hqueued
  · rw [hpages', hjob]
    refine forall_mem_middle (hpages ▸ hc.attempts_lt) fun h ↦ ?_
    rw [hstatus'] at h
    cases h

/-! ### Pages that change together -/

variable {sel : SitePage → Bool} {set : SitePage → SitePage}

theorem Clone.pageCount_updatePages {status : PageStatus}
    (hsel : ∀ page ∈ c.pages, page.status = status → sel page = false)
    (hset : ∀ page ∈ c.pages, sel page = true → (set page).status ≠ status) :
    (c.updatePages sel set).pageCount status = c.pageCount status := by
  unfold Clone.pageCount
  rw [List.countP_eq_length_filter, List.countP_eq_length_filter]
  refine congrArg List.length (Table.filter_update _ (fun page hpage h ↦ ?_) fun page hpage h ↦ ?_)
  · exact hsel page hpage (of_decide_eq_true h)
  · exact decide_eq_false (hset page hpage h)

theorem Clone.succeededBytes_updatePages
    (hsel : ∀ page ∈ c.pages, page.status = .succeeded → sel page = false)
    (hset : ∀ page ∈ c.pages, sel page = true → (set page).status ≠ .succeeded) :
    (c.updatePages sel set).succeededBytes = c.succeededBytes := by
  unfold Clone.succeededBytes
  refine congrArg (fun rows ↦ (List.map SitePage.inputBytes rows).sum)
    (Table.filter_update _ (fun page hpage h ↦ ?_) fun page hpage h ↦ ?_)
  · exact hsel page hpage (of_decide_eq_true h)
  · exact decide_eq_false (hset page hpage h)

/-- Cancelling what waits in the queue. -/
theorem Clone.Accounted.cancelPages (hc : c.Accounted) : c.cancelPages.Accounted := by
  have hcount : ∀ status, status ≠ .queued → status ≠ .cancelled →
      c.cancelPages.pageCount status = c.pageCount status := by
    intro status hqueued hcancelled
    refine Clone.pageCount_updatePages (fun page _ h ↦ ?_) fun page _ _ h ↦ hcancelled h.symm
    exact decide_eq_false fun hq ↦ hqueued (h.symm.trans hq)
  have hsum : c.cancelPages.succeededBytes = c.succeededBytes := by
    refine Clone.succeededBytes_updatePages (fun page _ h ↦ ?_) fun page _ _ h ↦ (by cases h)
    rw [h]
    rfl
  constructor
  · exact hc.valid
  · rw [hcount _ (by decide) (by decide), hcount _ (by decide) (by decide)]
    exact hc.processed
  · rw [hcount _ (by decide) (by decide)]
    exact hc.succeeded
  · rw [hcount _ (by decide) (by decide)]
    exact hc.failed
  · rw [hsum]
    exact hc.inputBytes
  · rw [hsum]
    exact hc.inputBytes_le
  · rw [hcount _ (by decide) (by decide)]
    exact hc.rendering_le
  · exact Table.forall_update hc.generation fun page hpage _ ↦ hc.generation page hpage
  · exact Table.forall_update hc.attempts_le fun page hpage _ ↦ hc.attempts_le page hpage
  · exact Table.forall_update hc.attempts_lt fun page hpage _ h ↦ (by cases h)

theorem SitePage.isExpired_status (h : page.isExpired now = true) : page.status = .rendering := by
  unfold SitePage.isExpired at h
  rw [Bool.and_eq_true, decide_eq_true_eq] at h
  exact h.1

/-- A reclaimed page keeps its attempts, and waits only if one is left. -/
theorem SitePage.reclaim_cases (now : Instant) (maxRetries : ℕ) (page : SitePage) :
    (page.reclaim now maxRetries).attemptCount = page.attemptCount ∧
      (page.reclaim now maxRetries).leaseGeneration = page.leaseGeneration ∧
      ((page.reclaim now maxRetries).status = .queued ∧ page.attemptCount < maxRetries ∨
        (page.reclaim now maxRetries).status = .failed) := by
  unfold SitePage.reclaim
  split_ifs with h
  · exact ⟨rfl, rfl, .inl ⟨rfl, h⟩⟩
  · exact ⟨rfl, rfl, .inr rfl⟩

theorem SitePage.reclaim_status_ne (now : Instant) (maxRetries : ℕ) (page : SitePage)
    {status : PageStatus} (hqueued : status ≠ .queued) (hfailed : status ≠ .failed) :
    (page.reclaim now maxRetries).status ≠ status := by
  unfold SitePage.reclaim
  split_ifs
  · exact hqueued.symm
  · exact hfailed.symm

theorem Clone.Accounted.reclaim (hc : c.Accounted) (now : Instant) (keys : List PageKey) :
    (c.reclaim now keys).Accounted := by
  have hstatus : ∀ {page : SitePage},
      (page.isExpired now && decide ((c.job.id, page.pageId) ∈ keys)) = true →
        page.status = .rendering := fun h ↦
    SitePage.isExpired_status (Bool.and_eq_true_iff.1 h).1
  have hsum : (c.reclaim now keys).succeededBytes = c.succeededBytes := by
    refine Clone.succeededBytes_updatePages (fun page _ h ↦ ?_) fun page _ _ ↦
      page.reclaim_status_ne now _ (by decide) (by decide)
    rw [← Bool.not_eq_true]
    intro hsel
    rw [hstatus hsel] at h
    cases h
  have hrendering : (c.reclaim now keys).pageCount .rendering ≤ c.pageCount .rendering := by
    have hcount := @Table.countP_update _
      (fun page ↦ page.isExpired now && decide ((c.job.id, page.pageId) ∈ keys))
      (SitePage.reclaim now c.job.policy.maxRetriesPerPage) c.pages
      fun page ↦ decide (page.status = .rendering)
    have hzero : c.pages.countP (fun page ↦
        (page.isExpired now && decide ((c.job.id, page.pageId) ∈ keys)) &&
          decide ((page.reclaim now c.job.policy.maxRetriesPerPage).status = .rendering)) = 0 := by
      rw [List.countP_eq_zero]
      intro page _ h
      exact page.reclaim_status_ne now _ (by decide) (by decide)
        (of_decide_eq_true (Bool.and_eq_true_iff.1 h).2)
    rw [hzero] at hcount
    exact (Nat.le_add_right _ _).trans hcount.le
  constructor
  · exact hc.valid
  · rfl
  · rfl
  · rfl
  · rfl
  · rw [hsum]
    exact hc.inputBytes_le
  · exact hrendering.trans hc.rendering_le
  · refine Table.forall_update hc.generation fun page hpage _ ↦ ?_
    obtain ⟨hattempts, hgeneration, -⟩ := page.reclaim_cases now c.job.policy.maxRetriesPerPage
    rw [hattempts, hgeneration]
    exact hc.generation page hpage
  · refine Table.forall_update hc.attempts_le fun page hpage _ ↦ ?_
    rw [(page.reclaim_cases now c.job.policy.maxRetriesPerPage).1]
    exact hc.attempts_le page hpage
  · refine Table.forall_update hc.attempts_lt fun page hpage _ hqueued ↦ ?_
    obtain ⟨hattempts, -, ⟨-, hlt⟩ | hfailed⟩ :=
      page.reclaim_cases now c.job.policy.maxRetriesPerPage
    · rw [hattempts]
      exact hlt
    · rw [hfailed] at hqueued
      cases hqueued

/-! ### Steps without a change of the work -/

theorem Clone.sameWork_withEvent (c : Clone) (messageId : Uuid) (status : JobStatus) :
    c.SameWork (c.withEvent now messageId status) :=
  ⟨rfl, rfl, rfl, rfl, rfl, rfl⟩

theorem Clone.sameWork_incrementJob (c : Clone) (messageId : Uuid) (succeeded : Bool)
    (inputBytes : ℕ) : (c.increment now succeeded inputBytes).SameWork
      (c.incrementJob now messageId succeeded inputBytes) := by
  unfold Clone.incrementJob
  dsimp only
  split_ifs
  · exact Clone.sameWork_withEvent _ messageId .running
  · exact .refl _

theorem Clone.sameWork_finishIngestion (c : Clone) : c.SameWork (c.finishIngestion now) := by
  unfold Clone.finishIngestion
  split_ifs <;> exact ⟨rfl, rfl, rfl, rfl, rfl, rfl⟩

theorem Clone.sameWork_abandonPhase (c : Clone) (messageId : Uuid) (claim : ClaimedSitePhase)
    (code : String) : c.SameWork (c.abandonPhase now messageId claim code) := by
  have hretry : c.SameWork ((c.retryPhase now claim code).updateArtifacts
      (SiteArtifact.isStagedIn claim.leaseGeneration) (SiteArtifact.abandon now)) := by
    unfold Clone.retryPhase
    split_ifs <;> exact ⟨rfl, rfl, rfl, rfl, rfl, rfl⟩
  unfold Clone.abandonPhase
  dsimp only
  split_ifs
  · exact hretry.trans (Clone.sameWork_withEvent _ messageId .failed)
  · exact hretry

theorem Clone.sameWork_finishDeletion (c : Clone) (messageId artifactId : Uuid) :
    c.SameWork (c.finishDeletion now messageId artifactId) := by
  unfold Clone.finishDeletion
  dsimp only
  split_ifs <;> exact ⟨rfl, rfl, rfl, rfl, rfl, rfl⟩

theorem Clone.Accounted.startReconcile (hc : c.Accounted) : (c.startReconcile now).Accounted := by
  have hcancelled : (if c.isOverdue now then c.exceedDeadline now else c).Accounted := by
    split_ifs
    · exact hc.same ⟨rfl, rfl, rfl, rfl, rfl, rfl⟩
    · exact hc
  unfold Clone.startReconcile
  generalize (if c.isOverdue now then c.exceedDeadline now else c) = cancelled at hcancelled ⊢
  dsimp only
  split_ifs
  · exact hcancelled.cancelPages
  · exact hcancelled

theorem Clone.Accounted.finishReconcile (hc : c.Accounted) (messageId : Uuid) :
    (c.finishReconcile now messageId).Accounted := by
  have hrefreshed : (c.refreshJobCounters now).Accounted :=
    { hc with processed := rfl, succeeded := rfl, failed := rfl, inputBytes := rfl }
  have hreconciled : ((c.refreshJobCounters now).reconcile now).Accounted :=
    hrefreshed.same ⟨rfl, rfl, rfl, rfl, rfl, rfl⟩
  unfold Clone.finishReconcile
  dsimp only
  split_ifs
  · exact hreconciled.same (Clone.sameWork_withEvent _ _ _)
  · exact hreconciled

end WebLens.SiteClone
