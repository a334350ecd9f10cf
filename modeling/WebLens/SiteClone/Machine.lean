import Mathlib.Data.List.Induction
import WebLens.SiteClone.Stale

/-!
# The machine of site clones

What holds of every run of the site clone worker: the limits of the policy, the exclusion of
workers that have lost their lease, and what the end of a job says about its pages.
-/

set_option autoImplicit false
set_option relaxedAutoImplicit false

namespace WebLens.SiteClone

open Lib Lib.Utf8 Lib.Transaction
open Capture (Uuid Instant Duration minute)

variable {env : Env} {action : Action} {now : Instant} {c c' : Case} {sys : System}

/-! ### Runs -/

/-- What holds of every case of every run. -/
structure Case.Sound (c : Case) : Prop where
  accounted : c.clone.Accounted
  claimed : c.Claimed
  settled : c.clone.Settled

theorem Case.Sound.new {hash : ByteString} {envelope : SiteCloneRequestedEnvelope}
    (h : envelope.payload.policy.isValid = true) : (Case.new now hash envelope).Sound where
  accounted := newSiteJob_accounted h
  claimed := by constructor <;> simp [Case.new]
  settled := newSiteJob_settled

theorem CaseStep.sound (h : CaseStep env now action c c') (hc : c.Sound)
    (hnodup : (c.clone.pages.map SitePage.pageId).Nodup) : c'.Sound where
  accounted := h.accounted hc.accounted hc.claimed hnodup
  claimed := h.claimed hc.accounted hc.claimed
  settled := h.settled hnodup hc.accounted hc.settled

/-- The keys, and every case. -/
structure System.Sound (sys : System) : Prop where
  keyed : sys.Keyed
  cases : ∀ c ∈ sys.store.clones, (sys.case c).Sound

theorem System.Sound.step (env : Env) (h : sys.Sound) (action : Action) :
    (sys.step env action).Sound := by
  refine ⟨h.keyed.step env action, fun c' hc' ↦ ?_⟩
  rcases h.keyed.case_cases env action hc' with ⟨c, hc, -, hstep⟩ | ⟨hash, envelope, hvalid, heq⟩
  · exact hstep.sound (h.cases c hc) (h.keyed.store.pages c hc)
  · rw [heq]
    exact .new hvalid

theorem System.Sound.empty : System.Sound {} :=
  ⟨.empty, fun _ h ↦ (by cases h)⟩

theorem System.sound_after (env : Env) (actions : List Action) :
    (System.after env actions).Sound :=
  run_invariant (P := System.Sound) (fun _ action h ↦ h.step env action) .empty actions

/-! ### Pages that are over -/

/-- The clones that are there stay, and so do their pages that are over. -/
def Store.Keeps (s s' : Store) : Prop :=
  ∀ c ∈ s.clones, ∃ c' ∈ s'.clones, c'.job.id = c.job.id ∧
    ∀ page ∈ c.pages, page.status.isActive = false → ∃ page' ∈ c'.pages,
      page'.pageId = page.pageId ∧ page'.status = page.status ∧
        page'.failureCode = page.failureCode

theorem Store.Keeps.refl (s : Store) : s.Keeps s :=
  fun c hc ↦ ⟨c, hc, rfl, fun page hpage _ ↦ ⟨page, hpage, rfl, rfl, rfl⟩⟩

theorem Store.Keeps.trans {s s' s'' : Store} (h : s.Keeps s') (h' : s'.Keeps s'') :
    s.Keeps s'' := by
  intro c hc
  obtain ⟨c', hc', hid, hpages⟩ := h c hc
  obtain ⟨c'', hc'', hid', hpages'⟩ := h' c' hc'
  refine ⟨c'', hc'', hid'.trans hid, fun page hpage hover ↦ ?_⟩
  obtain ⟨page', hpage', hpid, hstatus, hcode⟩ := hpages page hpage hover
  obtain ⟨page'', hpage'', hpid', hstatus', hcode'⟩ := hpages' page' hpage' (hstatus ▸ hover)
  exact ⟨page'', hpage'', hpid'.trans hpid, hstatus'.trans hstatus, hcode'.trans hcode⟩

theorem insertTargets_subset (targets : List SiteTargetInput) (pages : List SitePage) :
    ∀ page ∈ pages, page ∈ targets.foldl (insertTarget now) pages := by
  induction targets generalizing pages with
  | nil => exact fun _ h ↦ h
  | cons target targets ih =>
    intro page hpage
    rw [List.foldl_cons]
    refine ih _ page ?_
    unfold insertTarget
    split_ifs
    · exact hpage
    · exact List.mem_append_left _ hpage

theorem System.Sound.keeps_step (env : Env) (h : sys.Sound) (action : Action) :
    sys.store.Keeps (sys.step env action).store := by
  intro c hc
  obtain ⟨c', hc', hid, hstep⟩ := h.keyed.exists_case env action hc
  refine ⟨c', hc', hid, fun page hpage hover ↦ ?_⟩
  rcases hstep.pagesMove (h.keyed.store.pages c hc) with ⟨targets, -, heq⟩ | hmove
  · have heq : c' = c.addTargets sys.now targets := heq
    rw [heq]
    exact ⟨page, insertTargets_subset targets c.pages page hpage, rfl, rfl, rfl⟩
  · obtain ⟨page', hpage', hR⟩ := Table.exists_right_of_mem hmove hpage
    exact ⟨page', hpage', hR.pageId, hR.ended hover⟩

theorem System.Sound.keeps_run (env : Env) (h : sys.Sound) (actions : List Action) :
    sys.store.Keeps (run (System.step env) sys actions).store :=
  run_relation (R := fun sys sys' : System ↦ sys.store.Keeps sys'.store)
    (fun _ action h ↦ System.Sound.step env h action) (fun _ action h ↦ h.keeps_step env action)
    (fun _ ↦ .refl _) Store.Keeps.trans h actions

/-! ### Success -/

/-- Whether the page has reached `SUCCEEDED`. -/
def Store.hasSucceeded (jobId pageId : Uuid) (s : Store) : Bool :=
  s.clones.any fun c ↦ c.hasId jobId && c.pages.any fun page ↦
    decide (page.pageId = pageId) && decide (page.status = .succeeded)

/-- How many of the steps take the page to `SUCCEEDED`. -/
def successes (env : Env) (jobId pageId : Uuid) : System → List Action → ℕ
  | _, [] => 0
  | sys, action :: actions =>
    (if sys.store.hasSucceeded jobId pageId = false ∧
      (sys.step env action).store.hasSucceeded jobId pageId = true then 1 else 0) +
      successes env jobId pageId (sys.step env action) actions

theorem Store.hasSucceeded_iff {s : Store} {jobId pageId : Uuid} :
    s.hasSucceeded jobId pageId = true ↔ ∃ c ∈ s.clones, c.job.id = jobId ∧
      ∃ page ∈ c.pages, page.pageId = pageId ∧ page.status = .succeeded := by
  simp only [Store.hasSucceeded, List.any_eq_true, Bool.and_eq_true, decide_eq_true_eq,
    Clone.hasId_iff]

theorem Store.Keeps.hasSucceeded {s s' : Store} (h : s.Keeps s') {jobId pageId : Uuid}
    (hsucceeded : s.hasSucceeded jobId pageId = true) : s'.hasSucceeded jobId pageId = true := by
  obtain ⟨c, hc, hid, page, hpage, hpid, hstatus⟩ := Store.hasSucceeded_iff.1 hsucceeded
  obtain ⟨c', hc', hid', hpages⟩ := h c hc
  obtain ⟨page', hpage', hpid', hstatus', -⟩ := hpages page hpage (by rw [hstatus]; rfl)
  exact Store.hasSucceeded_iff.2
    ⟨c', hc', hid'.trans hid, page', hpage', hpid'.trans hpid, hstatus'.trans hstatus⟩

/-- A page that has succeeded does not succeed again. -/
theorem System.Sound.successes_eq_zero (env : Env) (h : sys.Sound) {jobId pageId : Uuid}
    (hsucceeded : sys.store.hasSucceeded jobId pageId = true) (actions : List Action) :
    successes env jobId pageId sys actions = 0 := by
  induction actions generalizing sys with
  | nil => rfl
  | cons action actions ih =>
    unfold successes
    rw [if_neg (fun hnew ↦ by rw [hsucceeded] at hnew; cases hnew.1), Nat.zero_add]
    exact ih (h.step env action) ((h.keeps_step env action).hasSucceeded hsucceeded)

theorem System.Sound.successes_le_one (env : Env) (h : sys.Sound) (jobId pageId : Uuid)
    (actions : List Action) : successes env jobId pageId sys actions ≤ 1 := by
  induction actions generalizing sys with
  | nil => exact Nat.zero_le 1
  | cons action actions ih =>
    unfold successes
    split_ifs with hnew
    · rw [(h.step env action).successes_eq_zero env hnew.2]
    · rw [Nat.zero_add]
      exact ih (h.step env action)

/-! ### Rejection at ingestion -/

/-- In the run of the actions, the page was cancelled while its job was being ingested. -/
def RejectedAtIngestion (env : Env) (actions : List Action) (jobId pageId : Uuid) : Prop :=
  ∃ earlier later, actions = earlier ++ later ∧ ∃ c ∈ (System.after env earlier).store.clones,
    c.job.id = jobId ∧ c.job.status = .ingesting ∧
      ∃ page ∈ c.pages, page.pageId = pageId ∧ page.status = .cancelled

theorem RejectedAtIngestion.append {actions : List Action} {jobId pageId : Uuid}
    (h : RejectedAtIngestion env actions jobId pageId) (more : List Action) :
    RejectedAtIngestion env (actions ++ more) jobId pageId := by
  obtain ⟨earlier, later, rfl, hc⟩ := h
  exact ⟨earlier, later ++ more, List.append_assoc _ _ _, hc⟩

/-- A page that is cancelled for another reason than a cancellation was rejected at ingestion. -/
theorem rejectedAtIngestion_of_failureCode (env : Env) (actions : List Action) :
    ∀ c ∈ (System.after env actions).store.clones, ∀ page ∈ c.pages,
      page.status = .cancelled → page.failureCode ≠ some "CANCELLED" →
        RejectedAtIngestion env actions c.job.id page.pageId := by
  induction actions using List.reverseRecOn with
  | nil => exact fun c hc ↦ by cases hc
  | append_singleton actions action ih =>
    intro c' hc' page' hpage' hcancelled hcode
    have h := System.sound_after env actions
    have hafter : System.after env (actions ++ [action]) =
        (System.after env actions).step env action := run_concat _ _ _ _
    rw [hafter] at hc'
    rcases h.keyed.case_cases env action hc' with ⟨c, hc, hid, hstep⟩ | ⟨hash, envelope, -, heq⟩
    · rcases hstep.pagesMove (h.keyed.store.pages c hc) with ⟨targets, hstatus, heq⟩ | hmove
      · -- The page may be new, and its job is still being ingested.
        have heq : c' = c.addTargets _ targets := heq
        refine ⟨actions ++ [action], [], (List.append_nil _).symm, c', ?_, rfl, ?_, page', hpage',
          rfl, hcancelled⟩
        · rw [hafter]
          exact hc'
        · rw [heq]
          exact hstatus
      · obtain ⟨page, hpage, hR⟩ := Table.exists_left_of_mem hmove hpage'
        rcases hR.cancelled hcancelled with hearlier | ⟨-, hcode'⟩
        · have hover := hR.ended (by rw [hearlier]; rfl)
          rw [hid, hR.pageId]
          exact (ih c hc page hpage hearlier (hover.2 ▸ hcode)).append [action]
        · exact absurd hcode' hcode
    · have hnone : c'.pages = [] := congrArg (fun d : Case ↦ d.clone.pages) heq
      rw [hnone] at hpage'
      cases hpage'

/-- The row of a page says whether ingestion rejected it. -/
theorem rejectedAtIngestion_iff (env : Env) (actions : List Action) {c : Clone}
    (hc : c ∈ (System.after env actions).store.clones) {page : SitePage} (hpage : page ∈ c.pages) :
    RejectedAtIngestion env actions c.job.id page.pageId ↔
      page.status = .cancelled ∧ page.failureCode ≠ some "CANCELLED" := by
  constructor
  · rintro ⟨earlier, later, rfl, c₀, hc₀, hid, hstatus, page₀, hpage₀, hpid, hcancelled⟩
    have h₀ := System.sound_after env earlier
    have hcode := (h₀.cases c₀ hc₀).settled.rejected hstatus page₀ hpage₀ hcancelled
    have hkeeps := h₀.keeps_run env later
    have hafter : run (System.step env) (System.after env earlier) later =
        System.after env (earlier ++ later) := (run_append _ _ _ _).symm
    rw [hafter] at hkeeps
    have h := (System.sound_after env (earlier ++ later)).keyed.store
    obtain ⟨c', hc', hid', hpages⟩ := hkeeps c₀ hc₀
    obtain rfl := h.eq hc' hc (hid'.trans hid)
    obtain ⟨page', hpage', hpid', hstatus', hcode'⟩ :=
      hpages page₀ hpage₀ (by rw [hcancelled]; rfl)
    obtain rfl := Table.eq_of_key_eq (h.pages c' hc') hpage' hpage (hpid'.trans hpid)
    exact ⟨hstatus'.trans hcancelled, hcode' ▸ hcode⟩
  · rintro ⟨hcancelled, hcode⟩
    exact rejectedAtIngestion_of_failureCode env actions c hc page hpage hcancelled hcode

/-! ### Assemblies -/

/-- The clone whose assembly a worker claims has no active page, before and after. -/
theorem System.Sound.claimAssembly (h : sys.Sound) {locks : AssemblyLocks} {workerId : Uuid}
    {claim : ClaimedSitePhase} (hclaim : (Transaction.commit
      (SiteClone.claimAssembly sys.now locks workerId) sys.store).1 = .ok (some claim)) :
    ∃ c ∈ sys.store.clones, ∃ c' ∈ (sys.step env (.claimAssembly locks workerId)).store.clones,
      c.job.id = claim.id ∧ c'.job.id = claim.id ∧ c'.job.status = .assembling ∧
        c'.pages = c.pages ∧ c.hasActivePage = false := by
  rcases commit_cases (SiteClone.claimAssembly sys.now locks workerId) sys.store with
    ⟨result, s', heq, hreturns⟩ | ⟨e, heq⟩
  · rw [heq] at hclaim
    obtain rfl := Except.ok.inj hclaim
    obtain ⟨c, hc, hid⟩ := List.mem_map.1 (claimAssembly_id h.keyed.store hreturns)
    obtain ⟨c', hc', hid', ⟨-, hother⟩ | ⟨a, ha, -, hassemblable, messageId, hc'eq, -⟩⟩ :=
      (moves_claimAssembly h.keyed.store hreturns).exists_of_mem_left hc
    · exact absurd hid.symm (hother claim rfl)
    · refine ⟨c, hc, c', ?_, hid, hid'.trans hid, ?_, ?_, ?_⟩
      · change c' ∈ (Transaction.commit
          (SiteClone.claimAssembly sys.now locks workerId) sys.store).2.clones
        rw [heq]
        exact hc'
      · rw [hc'eq]
        rfl
      · rw [hc'eq]
        rfl
      · exact (Clone.isAssemblable_iff.1 hassemblable).2.2.2.2
  · rw [heq] at hclaim
    cases hclaim

/-! ### Leases -/

theorem Clone.pageCount_rendering {d : Clone} (h : d.hasActivePage = false) :
    d.pageCount .rendering = 0 := by
  refine List.countP_eq_zero.2 fun page hpage heq ↦ ?_
  have hover := Clone.hasActivePage_iff.1 h page hpage
  rw [of_decide_eq_true heq] at hover
  cases hover

/-- For every run of the site clone worker, and every further step: a job renders at most as many
pages at once as its policy allows, the input of its succeeded pages keeps to the budget, and a page
is claimed at most as often as the policy allows; a worker whose phase or page is leased otherwise
changes nothing; a page succeeds at most once; a job has no rendering page when its assembly is
claimed; and of the jobs that are published or partial, those are published all of whose pages
succeeded or were rejected at ingestion. -/
theorem site_leases (env : Env) (actions : List Action) :
    let sys := System.after env actions
    (∀ c ∈ sys.store.clones, c.pageCount .rendering ≤ c.job.policy.pageConcurrency ∧
      c.succeededBytes ≤ c.job.policy.maxInputBytes ∧
      ∀ page ∈ c.pages, page.attemptCount ≤ c.job.policy.maxRetriesPerPage ∧
        sys.pages.countP (fun claim ↦ decide (claim.jobId = c.job.id) &&
          decide (claim.pageId = page.pageId)) = page.attemptCount) ∧
    (∀ claim action, sys.store.IsStalePhase claim → action.phaseClaim? = some claim →
      sys.step env action = sys) ∧
    (∀ claim action, sys.store.IsStalePage claim → action.pageClaim? = some claim →
      sys.step env action = sys) ∧
    (∀ jobId pageId, successes env jobId pageId {} actions ≤ 1) ∧
    (∀ locks workerId claim, (Transaction.commit
        (SiteClone.claimAssembly sys.now locks workerId) sys.store).1 = .ok (some claim) →
      ∃ c ∈ sys.store.clones, ∃ c' ∈ (sys.step env (.claimAssembly locks workerId)).store.clones,
        c.job.id = claim.id ∧ c'.job.id = claim.id ∧ c'.job.status = .assembling ∧
          c.pageCount .rendering = 0 ∧ c'.pageCount .rendering = 0) ∧
    (∀ c ∈ sys.store.clones, c.job.status.isPublished = true →
      (c.job.status = .published ↔ ∀ page ∈ c.pages, page.status = .succeeded ∨
        RejectedAtIngestion env actions c.job.id page.pageId)) := by
  intro sys
  have h : sys.Sound := System.sound_after env actions
  refine ⟨fun c hc ↦ ?_, ?_, ?_, ?_, ?_, fun c hc hpublished ↦ ?_⟩
  · have hsound := h.cases c hc
    refine ⟨hsound.accounted.rendering_le, hsound.accounted.inputBytes_le, fun page hpage ↦ ?_⟩
    refine ⟨hsound.accounted.attempts_le page hpage, ?_⟩
    have hcount := hsound.claimed.count page hpage
    simp only [System.case, List.countP_filter] at hcount
    rw [← hcount]
    exact List.countP_congr fun claim _ ↦ by rw [Bool.and_comm]
  · exact fun claim action ↦ System.step_of_isStalePhase
  · exact fun claim action ↦ System.step_of_isStalePage
  · exact fun jobId pageId ↦ System.Sound.empty.successes_le_one env jobId pageId actions
  · intro locks workerId claim hclaim
    obtain ⟨c, hc, c', hc', hid, hid', hstatus, hpages, hover⟩ := h.claimAssembly hclaim
    have hrendering := Clone.pageCount_rendering hover
    refine ⟨c, hc, c', hc', hid, hid', hstatus, hrendering, ?_⟩
    unfold Clone.pageCount at hrendering ⊢
    rw [hpages]
    exact hrendering
  · refine ((h.cases c hc).settled.published hpublished).trans ?_
    refine forall₂_congr fun page hpage ↦ ?_
    rw [rejectedAtIngestion_iff env actions hc hpage]
    rfl

end WebLens.SiteClone
