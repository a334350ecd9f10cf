import WebLens.SiteClone.Transactions

/-!
# Every step of the system is a step of every case

The system of loops refines the state machine of a single clone: a step of the system moves the
case of every clone as `CaseStep` allows, and the clone of a new command begins with an empty case.
-/

set_option autoImplicit false
set_option relaxedAutoImplicit false

namespace WebLens.SiteClone

open Lib Lib.Utf8 Lib.Transaction
open Capture (Uuid Instant Duration minute given)

variable {env : Env} {sys : System} {action : Action}

/-! ### Keys of the system -/

/-- The identifiers of the jobs. -/
def Store.jobIds (s : Store) : List Uuid :=
  s.clones.map fun c ↦ c.job.id

/-- The objects of a clone are under keys of its own. -/
structure Clone.OwnsKeys (c : Clone) : Prop where
  artifacts : ∀ row ∈ c.artifacts, row.object.key.jobId = c.job.id
  bundles : ∀ page ∈ c.pages, ∀ object, page.bundle = some object → object.key.jobId = c.job.id

/-- The keys are distinct, and what the loops hold is about jobs that there are. -/
structure System.Keyed (sys : System) : Prop where
  store : sys.store.Keyed
  owned : ∀ c ∈ sys.store.clones, c.OwnsKeys
  phases : ∀ claim ∈ sys.phases, claim.id ∈ sys.store.jobIds
  pages : ∀ claim ∈ sys.pages, claim.jobId ∈ sys.store.jobIds
  deletions : ∀ deletion ∈ sys.deletions,
    deletion.jobId ∈ sys.store.jobIds ∧ deletion.object.key.jobId = deletion.jobId
  objects : ∀ key ∈ sys.objects, key.jobId ∈ sys.store.jobIds
  staged : ∀ assembly ∈ sys.staged, assembly.claim ∈ sys.phases
  verified : ∀ assembly ∈ sys.verified, assembly.claim ∈ sys.phases
  restaged : ∀ assembly ∈ sys.restaged, assembly.claim ∈ sys.phases

theorem System.Keyed.empty : System.Keyed {} where
  store := .empty
  owned := by simp
  phases := by simp
  pages := by simp
  deletions := by simp
  objects := by simp
  staged := by simp
  verified := by simp
  restaged := by simp

/-! ### Transactions of a case -/

/-- The system moves every case as the step allows. -/
def System.Refines (env : Env) (sys : System) (action : Action) (sys' : System) : Prop :=
  sys.store.Moves (fun c c' ↦ c'.job.id = c.job.id ∧
    CaseStep env sys.now action (sys.case c) (sys'.case c')) sys'.store

/-- A step that changes nothing of what the cases show. -/
theorem refines_same (env : Env) (sys : System) (action : Action) : sys.Refines env action sys :=
  .refl _ (fun c ↦ ⟨rfl, .same action (sys.case c)⟩) sys.store

/-- With another database, the case of a clone is the former one with its new version. -/
theorem System.case_store {store : Store} {c c' : Clone} (h : c'.job.id = c.job.id) :
    ({ sys with store := store } : System).case c' = (sys.case c).set c' := by
  simp only [System.case, Case.set, h]

/-- A transaction that returns no claim. -/
theorem refines_commit {α : Type} {body : Tx α} {R : Clone → Clone → Prop}
    (hbody : ∀ {result s'}, Returns body sys.store result s' →
      sys.store.Moves (fun c c' ↦ c'.job.id = c.job.id ∧ R c c') s')
    (hcase : ∀ c ∈ sys.store.clones, ∀ c', R c c' →
      CaseStep env sys.now action (sys.case c) ((sys.case c).set c')) :
    sys.Refines env action (sys.commit body) := by
  rcases commit_cases body sys.store with ⟨result, s', heq, hreturns⟩ | ⟨error, heq⟩
  · unfold System.commit
    rw [heq]
    refine (hbody hreturns).mono ?_
    rintro c hc c' ⟨hid, hR⟩
    refine ⟨hid, ?_⟩
    rw [System.case_store hid]
    exact hcase c hc c' hR
  · unfold System.commit
    rw [heq]
    exact refines_same env sys action

/-- A transaction of a loop that needs a claim. -/
theorem refines_ite {α : Type} {body : Tx α} {R : Clone → Clone → Prop} {condition : Prop}
    [Decidable condition]
    (hbody : ∀ {result s'}, Returns body sys.store result s' →
      sys.store.Moves (fun c c' ↦ c'.job.id = c.job.id ∧ R c c') s')
    (hcase : condition → ∀ c ∈ sys.store.clones, ∀ c', R c c' →
      CaseStep env sys.now action (sys.case c) ((sys.case c).set c')) :
    sys.Refines env action (if condition then sys.commit body else sys) := by
  split_ifs with h
  · exact refines_commit hbody (hcase h)
  · exact refines_same env sys action

/-- The claims for a job after a transaction that returned none for it. -/
theorem filter_given_of_ne {α : Type} {key : α → Uuid} {id : Uuid} {result : Option α}
    (h : ∀ a, result = some a → key a ≠ id) (held : List α) :
    (given (Except.ok result : Except Error (Option α)) held).filter (fun a ↦ decide (key a = id)) =
      held.filter fun a ↦ decide (key a = id) := by
  cases result with
  | none => rfl
  | some a => exact List.filter_cons_of_neg (by simpa using h a rfl)

/-- The claims for a job after a transaction that returned one for it. -/
theorem filter_given_of_eq {α : Type} {key : α → Uuid} {id : Uuid} {a : α} (h : key a = id)
    (held : List α) :
    (given (Except.ok (some a) : Except Error (Option α)) held).filter
      (fun a ↦ decide (key a = id)) = a :: held.filter fun a ↦ decide (key a = id) :=
  List.filter_cons_of_pos (by simpa using h)

/-! ### Claims -/

theorem refines_claimIngestion (hkeyed : sys.Keyed) (locked : List Uuid) (workerId : Uuid) :
    sys.Refines env (.claimIngestion locked workerId)
      (sys.step env (.claimIngestion locked workerId)) := by
  rcases commit_cases (claimIngestion sys.now locked workerId) sys.store with
    ⟨result, s', heq, hreturns⟩ | ⟨error, heq⟩
  · simp only [System.step, heq]
    refine (moves_claimIngestion hkeyed.store hreturns).mono ?_
    rintro c - c' ⟨hid, ⟨rfl, hother⟩ | ⟨claim, rfl, hclaim, hfree, rfl, rfl⟩⟩
    · refine ⟨hid, ?_⟩
      simp only [System.case, filter_given_of_ne hother]
      exact .same _ _
    · refine ⟨hid, ?_⟩
      simp only [System.case, hid, filter_given_of_eq hclaim]
      exact .ingestionClaimed hfree
  · simp only [System.step, heq]
    exact refines_same env sys _

theorem refines_claimPage (hkeyed : sys.Keyed) (locks : PageLocks) (workerId : Uuid) :
    sys.Refines env (.claimPage locks workerId) (sys.step env (.claimPage locks workerId)) := by
  rcases commit_cases (claimPage sys.now locks workerId) sys.store with
    ⟨result, s', heq, hreturns⟩ | ⟨error, heq⟩
  · simp only [System.step, heq]
    refine (moves_claimPage hkeyed.store hreturns).mono ?_
    rintro c - c' ⟨hid, ⟨hc', hother⟩ | ⟨claim, rfl, hclaim, d, page, hd, hpage, hfree, rfl, rfl⟩⟩
    · refine ⟨hid, ?_⟩
      rcases hc' with rfl | ⟨keys, rfl⟩
      · simp only [System.case, filter_given_of_ne hother]
        exact .same _ _
      · simp only [System.case, hid, filter_given_of_ne hother]
        exact .pagesReclaimed keys
    · refine ⟨hid, ?_⟩
      simp only [System.case, hid, filter_given_of_eq hclaim]
      exact .pageClaimed hd hpage hfree
  · simp only [System.step, heq]
    exact refines_same env sys _

theorem refines_claimAssembly (hkeyed : sys.Keyed) (locks : AssemblyLocks) (workerId : Uuid) :
    sys.Refines env (.claimAssembly locks workerId)
      (sys.step env (.claimAssembly locks workerId)) := by
  rcases commit_cases (claimAssembly sys.now locks workerId) sys.store with
    ⟨result, s', heq, hreturns⟩ | ⟨error, heq⟩
  · simp only [System.step, heq]
    refine (moves_claimAssembly hkeyed.store hreturns).mono ?_
    rintro c - c' ⟨hid, ⟨hc', hother⟩ | ⟨claim, rfl, hclaim, hfree, messageId, rfl, rfl⟩⟩
    · refine ⟨hid, ?_⟩
      rcases hc' with rfl | ⟨hempty, messageId, rfl⟩
      · simp only [System.case, filter_given_of_ne hother]
        exact .same _ _
      · simp only [System.case, hid, filter_given_of_ne hother]
        exact .emptyFailed messageId hempty
    · refine ⟨hid, ?_⟩
      simp only [System.case, hid, filter_given_of_eq hclaim]
      exact .assemblyClaimed messageId hfree
  · simp only [System.step, heq]
    exact refines_same env sys _

theorem refines_claimObjectForDeletion (hkeyed : sys.Keyed) (locks : DeletionLocks) :
    sys.Refines env (.claimObjectForDeletion locks)
      (sys.step env (.claimObjectForDeletion locks)) := by
  rcases commit_cases (claimObjectForDeletion sys.now locks) sys.store with
    ⟨result, s', heq, hreturns⟩ | ⟨error, heq⟩
  · simp only [System.step, heq]
    refine (moves_claimObjectForDeletion hkeyed.store hreturns).mono ?_
    rintro c - c' ⟨hid, ⟨rfl, hother⟩ | ⟨deletion, rfl, hclaim, hclaimed⟩⟩
    · refine ⟨hid, ?_⟩
      simp only [System.case, filter_given_of_ne hother]
      exact .same _ _
    · refine ⟨hid, ?_⟩
      simp only [System.case, hid, filter_given_of_eq hclaim]
      rcases hclaimed with ⟨row, hrow, hdue, rfl, rfl⟩ |
        ⟨page, hpage, hdue, object, hobject, rfl, rfl⟩
      · exact .artifactClaimed hrow hdue
      · exact .bundleClaimed hpage hdue hobject
  · simp only [System.step, heq]
    exact refines_same env sys _

/-! ### Assemblies -/

theorem Assembly.jobId_of_mem_keys {assembly : Assembly} {key : StorageKey}
    (h : key ∈ assembly.keys) : key.jobId = assembly.claim.id := by
  simp only [keys, artifacts, List.map_map, List.mem_map] at h
  obtain ⟨part, -, rfl⟩ := h
  rfl

theorem refines_stageArtifacts (hkeyed : sys.Keyed) (assembly : Assembly) :
    sys.Refines env (.stageArtifacts assembly) (sys.step env (.stageArtifacts assembly)) := by
  simp only [System.step]
  by_cases hheld : assembly.claim ∈ sys.phases ∧
      ∀ other ∈ sys.staged, other.claim = assembly.claim → other = assembly
  · rw [if_pos hheld]
    rcases commit_cases (stageArtifacts sys.now assembly.claim assembly.artifacts) sys.store with
      ⟨result, s', heq, hreturns⟩ | ⟨error, heq⟩
    · simp only [heq, succeeds, if_true]
      refine (moves_stageArtifacts hkeyed.store hreturns).mono ?_
      rintro c - c' ⟨hid, h⟩
      refine ⟨hid, ?_⟩
      split_ifs at h with hcid
      · have hstaged : (assembly :: sys.staged).filter
            (fun assembly ↦ decide (assembly.claim.id = c.job.id)) =
              assembly :: (sys.case c).staged :=
          List.filter_cons_of_pos (by simpa using hcid.symm)
        simp only [System.case, hid, hstaged]
        refine .staged (List.mem_filter.2 ⟨hheld.1, by simpa using hcid.symm⟩) ?_ h
        exact fun other hother ↦ hheld.2 other (List.mem_filter.1 hother).1
      · subst h
        have hstaged : (assembly :: sys.staged).filter
            (fun assembly ↦ decide (assembly.claim.id = c'.job.id)) = (sys.case c').staged :=
          List.filter_cons_of_neg (by simpa using fun h ↦ hcid h.symm)
        simp only [System.case, hstaged]
        exact .same _ _
    · simp only [heq, succeeds, Bool.false_eq_true, if_false]
      exact refines_same env sys _
  · rw [if_neg hheld]
    exact refines_same env sys _

theorem refines_restageArtifacts (hkeyed : sys.Keyed) (assembly : Assembly) :
    sys.Refines env (.restageArtifacts assembly) (sys.step env (.restageArtifacts assembly)) := by
  simp only [System.step]
  by_cases hheld : assembly ∈ sys.verified
  · rw [if_pos hheld]
    rcases commit_cases (stageArtifacts sys.now assembly.claim assembly.artifacts) sys.store with
      ⟨result, s', heq, hreturns⟩ | ⟨error, heq⟩
    · simp only [heq, succeeds, if_true]
      refine (moves_stageArtifacts hkeyed.store hreturns).mono ?_
      rintro c - c' ⟨hid, h⟩
      refine ⟨hid, ?_⟩
      split_ifs at h with hcid
      · have hstaged : (assembly :: sys.restaged).filter
            (fun assembly ↦ decide (assembly.claim.id = c.job.id)) =
              assembly :: (sys.case c).restaged :=
          List.filter_cons_of_pos (by simpa using hcid.symm)
        simp only [System.case, hid, hstaged]
        exact .restaged (List.mem_filter.2 ⟨hheld, by simpa using hcid.symm⟩) h
      · subst h
        have hstaged : (assembly :: sys.restaged).filter
            (fun assembly ↦ decide (assembly.claim.id = c'.job.id)) = (sys.case c').restaged :=
          List.filter_cons_of_neg (by simpa using fun h ↦ hcid h.symm)
        simp only [System.case, hstaged]
        exact .same _ _
    · simp only [heq, succeeds, Bool.false_eq_true, if_false]
      exact refines_same env sys _
  · rw [if_neg hheld]
    exact refines_same env sys _

/-- A step of the loops that leaves the database alone. -/
theorem refines_of_store {sys' : System} (hstore : sys'.store = sys.store)
    (hcase : ∀ c ∈ sys.store.clones, CaseStep env sys.now action (sys.case c) (sys'.case c)) :
    sys.Refines env action sys' := by
  unfold System.Refines
  rw [hstore]
  refine (Store.Moves.refl (fun c c' ↦ c' = c) (fun _ ↦ rfl) sys.store).mono ?_
  rintro c hc c' rfl
  exact ⟨rfl, hcase c' hc⟩

theorem refines_verifyArtifacts (assembly : Assembly) :
    sys.Refines env (.verifyArtifacts assembly) (sys.step env (.verifyArtifacts assembly)) := by
  simp only [System.step]
  split_ifs with hheld
  · refine refines_of_store rfl fun c _ ↦ ?_
    by_cases hid : assembly.claim.id = c.job.id
    · have hverified : (assembly :: sys.verified).filter
          (fun assembly ↦ decide (assembly.claim.id = c.job.id)) =
            assembly :: (sys.case c).verified :=
        List.filter_cons_of_pos (by simpa using hid)
      simp only [System.case, hverified]
      refine .verified (List.mem_filter.2 ⟨hheld.1, by simpa using hid⟩) fun key hkey ↦ ?_
      refine List.mem_filter.2 ⟨hheld.2 key hkey, ?_⟩
      simpa [Assembly.jobId_of_mem_keys hkey] using hid
    · have hverified : (assembly :: sys.verified).filter
          (fun assembly ↦ decide (assembly.claim.id = c.job.id)) = (sys.case c).verified :=
        List.filter_cons_of_neg (by simpa using hid)
      simp only [System.case, hverified]
      exact .same _ _
  · exact refines_same env sys _

/-- Another object for a clone, or for none. -/
theorem filter_objects (key : StorageKey) (c : Clone) :
    (key :: sys.objects).filter (fun key ↦ decide (key.jobId = c.job.id)) =
      if key.jobId = c.job.id then key :: (sys.case c).objects else (sys.case c).objects := by
  rw [List.filter_cons]
  split_ifs <;> simp_all [System.case]

theorem refines_copyArtifact (assembly : Assembly) (key : StorageKey) :
    sys.Refines env (.copyArtifact assembly key) (sys.step env (.copyArtifact assembly key)) := by
  simp only [System.step]
  split_ifs with hheld
  · refine refines_of_store rfl fun c _ ↦ ?_
    have hkey := Assembly.jobId_of_mem_keys hheld.2
    simp only [System.case, filter_objects]
    split_ifs with hid
    · exact .copied (List.mem_filter.2 ⟨hheld.1, by simpa using hkey ▸ hid⟩) hheld.2
    · exact .same _ _
  · exact refines_same env sys _

theorem refines_putBundle (claim : ClaimedSitePage) :
    sys.Refines env (.putBundle claim) (sys.step env (.putBundle claim)) := by
  simp only [System.step]
  split_ifs with hheld
  · refine refines_of_store rfl fun c _ ↦ ?_
    simp only [System.case, filter_objects]
    split_ifs with hid
    · exact .bundlePut (List.mem_filter.2 ⟨hheld, decide_eq_true hid⟩)
    · exact .same _ _
  · exact refines_same env sys _

theorem refines_deleteObject (hkeyed : sys.Keyed) (deletion : ClaimedSiteObjectDeletion) :
    sys.Refines env (.deleteObject deletion) (sys.step env (.deleteObject deletion)) := by
  simp only [System.step]
  split_ifs with hheld
  · refine refines_of_store rfl fun c _ ↦ ?_
    have hkey := (hkeyed.deletions deletion hheld).2
    by_cases hid : deletion.jobId = c.job.id
    · have hobjects : (sys.objects.filter fun key ↦ decide (key ≠ deletion.object.key)).filter
          (fun key ↦ decide (key.jobId = c.job.id)) =
            (sys.case c).objects.filter fun key ↦ decide (key ≠ deletion.object.key) := by
        simp only [System.case, List.filter_filter, Bool.and_comm]
      simp only [System.case, hobjects]
      exact .objectDeleted (List.mem_filter.2 ⟨hheld, by simpa using hid⟩)
    · have hobjects : (sys.objects.filter fun key ↦ decide (key ≠ deletion.object.key)).filter
          (fun key ↦ decide (key.jobId = c.job.id)) = (sys.case c).objects := by
        simp only [System.case, List.filter_filter]
        refine List.filter_congr fun key _ ↦ ?_
        by_cases hkid : key.jobId = c.job.id
        · have hne : key ≠ deletion.object.key := by
            rintro rfl
            exact hid (hkey.symm.trans hkid)
          simp [hkid, hne]
        · simp [hkid]
      simp only [System.case, hobjects]
      exact .same _ _
  · exact refines_same env sys _

/-! ### Every step -/

/-- A step accepts a new command, or moves every case. -/
theorem System.refines_step (env : Env) (hkeyed : sys.Keyed) (action : Action) :
    (∃ envelope, action = .acceptCommand (.requested envelope) ∧
      (∀ c ∈ sys.store.clones, c.job.id ≠ envelope.payload.siteCloneRequestId) ∧
      envelope.payload.policy.isValid = true ∧ ∃ hash,
        sys.step env action = { sys with store := sys.store.accepted sys.now hash envelope }) ∨
      sys.Refines env action (sys.step env action) := by
  cases action with
  | tick duration => exact .inr (refines_of_store rfl fun c _ ↦ .same _ _)
  | acceptCommand envelope =>
    cases envelope with
    | requested envelope =>
      simp only [System.step, acceptCommand]
      by_cases hvalid : (SiteCloneCommandEnvelope.requested envelope).isValid = true
      · rw [if_pos hvalid]
        rcases commit_cases (acceptRequested env sys.now envelope) sys.store with
          ⟨result, s', heq, hreturns⟩ | ⟨error, heq⟩
        · unfold System.commit
          rw [heq]
          rcases acceptRequested_cases hreturns with rfl | ⟨hfresh, hpolicy, rfl⟩
          · exact .inr (refines_same env sys _)
          · exact .inl ⟨envelope, rfl, hfresh, hpolicy, _, rfl⟩
        · unfold System.commit
          rw [heq]
          exact .inr (refines_same env sys _)
      · rw [if_neg hvalid]
        exact .inr (refines_same env sys _)
    | cancelRequested envelope =>
      refine .inr (refines_ite (fun h ↦ moves_acceptCancellation hkeyed.store h) ?_)
      rintro - c - c' (rfl | ⟨hid, hstatus, rfl⟩)
      · exact .same _ _
      · exact .cancelled hid hstatus
  | claimIngestion locked workerId => exact .inr (refines_claimIngestion hkeyed locked workerId)
  | extendPhaseLease claim =>
    refine .inr (refines_ite (fun h ↦ moves_extendPhaseLease h) ?_)
    rintro - c - c' (rfl | ⟨hheld, hstatus, rfl⟩)
    · exact .same _ _
    · exact .phaseExtended hheld hstatus
  | addTargets claim targets =>
    refine .inr (refines_ite (fun h ↦ moves_addTargets hkeyed.store h) ?_)
    rintro - c - c' (rfl | ⟨hlease, rfl⟩)
    · exact .same _ _
    · exact .targetsAdded hlease
  | finishIngestion claim =>
    refine .inr (refines_ite (fun h ↦ moves_finishIngestion hkeyed.store h) ?_)
    rintro - c - c' (rfl | ⟨hheld, hstatus, messageId, rfl⟩)
    · exact .same _ _
    · exact .ingestionFinished messageId hheld hstatus
  | claimPage locks workerId => exact .inr (refines_claimPage hkeyed locks workerId)
  | extendPageLease claim =>
    refine .inr (refines_ite (fun h ↦ moves_extendPageLease h) ?_)
    rintro - c - c' (rfl | ⟨hheld, rfl⟩)
    · exact .same _ _
    · exact .pageExtended hheld
  | putBundle claim => exact .inr (refines_putBundle claim)
  | completePage claim bucket bytes sha256 inputBytes =>
    refine .inr (refines_ite (fun h ↦ moves_completePage hkeyed.store h) ?_)
    rintro - c - c' (rfl | ⟨hheld, ⟨hstatus, rfl⟩ | ⟨hstatus, messageId, ⟨hbudget, rfl⟩ |
      ⟨hbudget, rfl⟩⟩⟩)
    · exact .same _ _
    · exact .pageCancelled hheld hstatus
    · exact .pageOverBudget messageId hheld hstatus hbudget
    · exact .pageCompleted messageId hheld hstatus hbudget
  | failPage claim code =>
    refine .inr (refines_ite (fun h ↦ moves_failPage hkeyed.store h) ?_)
    rintro hclaim c - c' (rfl | ⟨hheld, messageId, rfl⟩)
    · exact .same _ _
    · have hid := (Clone.isPageHeldBy_iff.1 hheld).1
      exact .pageFailed messageId (List.mem_filter.2 ⟨hclaim, decide_eq_true hid.symm⟩) hheld
  | claimAssembly locks workerId => exact .inr (refines_claimAssembly hkeyed locks workerId)
  | stageArtifacts assembly => exact .inr (refines_stageArtifacts hkeyed assembly)
  | copyArtifact assembly key => exact .inr (refines_copyArtifact assembly key)
  | verifyArtifacts assembly => exact .inr (refines_verifyArtifacts assembly)
  | restageArtifacts assembly => exact .inr (refines_restageArtifacts hkeyed assembly)
  | publishArtifacts assembly =>
    refine .inr (refines_ite (fun h ↦ moves_publishStaged hkeyed.store h) ?_)
    rintro hheld c - c' (rfl | ⟨hlease, hbudget, messageId, rfl⟩)
    · exact .same _ _
    · have hid := (Clone.isPhaseHeldBy_iff.1 (Clone.isPhaseLeasedBy_iff.1 hlease).2.1).1
      exact .published messageId (List.mem_filter.2 ⟨hheld, decide_eq_true hid.symm⟩) hlease
        hbudget
  | retryIngestion claim code =>
    refine .inr (refines_ite (fun h ↦ moves_retryPhase hkeyed.store h) ?_)
    rintro - c - c' (rfl | ⟨hheld, hstatus, messageId, rfl⟩)
    · exact .same _ _
    · exact .ingestionRetried messageId hheld hstatus
  | retryAssembly claim code =>
    refine .inr (refines_ite (fun h ↦ moves_retryPhase hkeyed.store h) ?_)
    rintro - c - c' (rfl | ⟨hheld, hstatus, messageId, rfl⟩)
    · exact .same _ _
    · exact .assemblyRetried messageId hheld hstatus
  | reconcileCancellations locked =>
    refine .inr (refines_commit (fun h ↦ moves_reconcileCancellations hkeyed.store h) ?_)
    rintro c - c' h
    split_ifs at h with hready
    · obtain ⟨messageId, rfl⟩ := h
      exact .reconciled messageId hready.1
    · subst h
      refine .reconcileStarted ?_
      rcases not_and_or.1 hready with hready | hready
      · exact .inl (Bool.not_eq_true _ ▸ hready)
      · exact .inr (Bool.not_eq_true _ ▸ (not_or.1 hready).1)
  | claimObjectForDeletion locks => exact .inr (refines_claimObjectForDeletion hkeyed locks)
  | deleteObject deletion => exact .inr (refines_deleteObject hkeyed deletion)
  | completeObjectDeletion deletion =>
    cases deletion with
    | artifact jobId artifactId object =>
      refine .inr (refines_ite (fun h ↦ moves_completeArtifactDeletion hkeyed.store h) ?_)
      rintro hheld c - c' (rfl | ⟨rfl, hrow, messageId, rfl⟩)
      · exact .same _ _
      · exact @CaseStep.artifactDeleted env _ artifactId object (sys.case c) messageId
          (List.mem_filter.2 ⟨hheld, decide_eq_true rfl⟩) hrow
    | pageBundle jobId pageId object =>
      refine .inr (refines_ite (fun h ↦ moves_completeBundleDeletion h) ?_)
      rintro hheld c - c' (rfl | ⟨rfl, rfl⟩)
      · exact .same _ _
      · exact @CaseStep.bundleDeleted env _ pageId object (sys.case c)
          (List.mem_filter.2 ⟨hheld, decide_eq_true rfl⟩)
  | retryObjectDeletion deletion =>
    cases deletion with
    | artifact jobId artifactId object =>
      refine .inr (refines_ite (fun h ↦ moves_retryArtifactDeletion h) ?_)
      rintro hheld c - c' (rfl | ⟨rfl, rfl⟩)
      · exact .same _ _
      · exact @CaseStep.artifactPostponed env _ artifactId object (sys.case c)
          (List.mem_filter.2 ⟨hheld, decide_eq_true rfl⟩)
    | pageBundle jobId pageId object =>
      refine .inr (refines_ite (fun h ↦ moves_retryBundleDeletion h) ?_)
      rintro hheld c - c' (rfl | ⟨rfl, rfl⟩)
      · exact .same _ _
      · exact @CaseStep.bundlePostponed env _ pageId object (sys.case c)
          (List.mem_filter.2 ⟨hheld, decide_eq_true rfl⟩)

/-! ### Keys stay -/

theorem Store.Moves.jobIds {s s' : Store} {R : Clone → Clone → Prop}
    (h : s.Moves (fun c c' ↦ c'.job.id = c.job.id ∧ R c c') s') : s'.jobIds = s.jobIds :=
  ids_eq (h.clones.imp fun _ _ h ↦ h.1)

theorem System.Refines.jobIds {sys' : System} (h : sys.Refines env action sys') :
    sys'.store.jobIds = sys.store.jobIds :=
  Store.Moves.jobIds h

/-- A claim of an ingestion is about a job. -/
theorem claimIngestion_id {s s' : Store} {now : Instant} {locked : List Uuid} {workerId : Uuid}
    {claim : ClaimedSitePhase} (h : Returns (claimIngestion now locked workerId) s (some claim) s') :
    claim.id ∈ s.jobIds := by
  simp only [claimIngestion, returns_bind, returns_get, exists_and_left, exists_eq_left,
    and_assoc] at h
  split at h
  · rw [returns_pure] at h
    cases h.1
  · next c hfirst =>
    simp only [returns_bind, returns_pure] at h
    obtain ⟨_, _, -, hclaim, -⟩ := h
    rw [Option.some.inj hclaim]
    exact List.mem_map.2 ⟨c, (List.mem_filter.1 (Table.firstBy_mem hfirst)).1, rfl⟩

/-- A claim of an assembly is about a job. -/
theorem claimAssembly_id {s s' : Store} (hkeyed : s.Keyed) {now : Instant} {locks : AssemblyLocks}
    {workerId : Uuid} {claim : ClaimedSitePhase}
    (h : Returns (claimAssembly now locks workerId) s (some claim) s') : claim.id ∈ s.jobIds := by
  simp only [claimAssembly, returns_bind, returns_get, exists_and_left, exists_eq_left,
    and_assoc] at h
  obtain ⟨_, s₁, hfinalize, h⟩ := h
  rw [← (moves_finalizeEmptyJobs hkeyed hfinalize).jobIds]
  split at h
  · rw [returns_pure] at h
    cases h.1
  · next c hfirst =>
    simp only [returns_bind, returns_pure] at h
    obtain ⟨_, _, -, _, _, -, hclaim, -⟩ := h
    rw [Option.some.inj hclaim]
    exact List.mem_map.2 ⟨c, (List.mem_filter.1 (Table.firstBy_mem hfirst)).1, rfl⟩

/-- A claim of a page is about a job. -/
theorem claimPage_id {s s' : Store} {now : Instant} {locks : PageLocks} {workerId : Uuid}
    {claim : ClaimedSitePage} (h : Returns (claimPage now locks workerId) s (some claim) s') :
    claim.jobId ∈ s.jobIds := by
  simp only [claimPage, returns_bind, returns_get, exists_and_left, exists_eq_left,
    and_assoc] at h
  obtain ⟨_, s₁, hreclaim, h⟩ := h
  rw [← (moves_updateClones (Clone.sameKeys_reclaim _) hreclaim).jobIds]
  split at h
  · rw [returns_pure] at h
    cases h.1
  · next c page hclaimable =>
    simp only [returns_bind, returns_pure] at h
    obtain ⟨_, _, -, hclaim, -⟩ := h
    rw [Option.some.inj hclaim]
    exact List.mem_map_of_mem (claimablePage_mem hclaimable).1

/-- A claimed deletion is about an object of a job. -/
theorem claimObjectForDeletion_id {s s' : Store} {now : Instant} {locks : DeletionLocks}
    (howned : ∀ c ∈ s.clones, c.OwnsKeys) {deletion : ClaimedSiteObjectDeletion}
    (h : Returns (claimObjectForDeletion now locks) s (some deletion) s') :
    deletion.jobId ∈ s.jobIds ∧ deletion.object.key.jobId = deletion.jobId := by
  simp only [claimObjectForDeletion, returns_bind, returns_get, exists_and_left, exists_eq_left,
    and_assoc] at h
  split at h
  · next c row hfirst =>
    simp only [returns_bind, returns_pure] at h
    obtain ⟨_, _, -, hclaim, -⟩ := h
    obtain ⟨hc, hrow, -⟩ := dueArtifact_mem hfirst
    rw [Option.some.inj hclaim]
    exact ⟨List.mem_map_of_mem hc, (howned c hc).artifacts row hrow⟩
  · split at h
    · next c page hfirst =>
      simp only [returns_bind, returns_found, returns_pure] at h
      obtain ⟨_, _, -, object, _, ⟨hobject, -⟩, hclaim, -⟩ := h
      obtain ⟨hc, hpage, -⟩ := dueBundle_mem hfirst
      rw [Option.some.inj hclaim]
      exact ⟨List.mem_map_of_mem hc, (howned c hc).bundles page hpage object hobject⟩
    · rw [returns_pure] at h
      cases h.1

/-- What the loops hold after a step they were given, or had, or made of what they had. -/
structure System.Holds (sys sys' : System) : Prop where
  phases : ∀ claim ∈ sys'.phases, claim ∈ sys.phases ∨ claim.id ∈ sys.store.jobIds
  phases_subset : ∀ claim ∈ sys.phases, claim ∈ sys'.phases
  pages : ∀ claim ∈ sys'.pages, claim ∈ sys.pages ∨ claim.jobId ∈ sys.store.jobIds
  deletions : ∀ deletion ∈ sys'.deletions, deletion ∈ sys.deletions ∨
    deletion.jobId ∈ sys.store.jobIds ∧ deletion.object.key.jobId = deletion.jobId
  objects : ∀ key ∈ sys'.objects, key ∈ sys.objects ∨
    (∃ claim ∈ sys.pages, key.jobId = claim.jobId) ∨
      ∃ assembly ∈ sys.staged, key.jobId = assembly.claim.id
  staged : ∀ assembly ∈ sys'.staged, assembly ∈ sys.staged ∨ assembly.claim ∈ sys.phases
  verified : ∀ assembly ∈ sys'.verified, assembly ∈ sys.verified ∨ assembly ∈ sys.staged
  restaged : ∀ assembly ∈ sys'.restaged, assembly ∈ sys.restaged ∨ assembly ∈ sys.verified

/-- A transaction changes nothing of what the loops hold. -/
theorem System.Holds.ofStore (sys : System) (store : Store) :
    sys.Holds { sys with store := store } where
  phases := fun _ h ↦ .inl h
  phases_subset := fun _ h ↦ h
  pages := fun _ h ↦ .inl h
  deletions := fun _ h ↦ .inl h
  objects := fun _ h ↦ .inl h
  staged := fun _ h ↦ .inl h
  verified := fun _ h ↦ .inl h
  restaged := fun _ h ↦ .inl h

theorem System.Holds.ite {sys₁ sys₂ : System} {condition : Prop} [Decidable condition]
    (h₁ : condition → sys.Holds sys₁) (h₂ : sys.Holds sys₂) :
    sys.Holds (if condition then sys₁ else sys₂) := by
  split_ifs with h
  · exact h₁ h
  · exact h₂

/-- What a loop may be given by a transaction. -/
theorem mem_given {α : Type} {s : Store} {body : Tx (Option α)} {held : List α} {a : α}
    (h : a ∈ given (commit body s).1 held) : a ∈ held ∨ ∃ s', Returns body s (some a) s' := by
  rcases commit_cases body s with ⟨result, s', heq, hreturns⟩ | ⟨error, heq⟩
  · rw [heq] at h
    cases result with
    | none => exact .inl h
    | some b =>
      rcases List.mem_cons.1 h with rfl | h
      · exact .inr ⟨s', hreturns⟩
      · exact .inl h
  · rw [heq] at h
    exact .inl h

/-- What a loop had, it keeps. -/
theorem mem_given_of_mem {α ε : Type} {result : Except ε (Option α)} {held : List α} {a : α}
    (h : a ∈ held) : a ∈ given result held := by
  unfold given
  split
  · exact List.mem_cons_of_mem _ h
  · exact h

theorem System.holds_step (env : Env) (hkeyed : sys.Keyed) (action : Action) :
    sys.Holds (sys.step env action) := by
  have hsame : sys.Holds sys := .ofStore sys sys.store
  cases action with
  | tick duration =>
    exact ⟨hsame.phases, hsame.phases_subset, hsame.pages, hsame.deletions, hsame.objects,
      hsame.staged, hsame.verified, hsame.restaged⟩
  | claimIngestion locked workerId =>
    have hstore := System.Holds.ofStore sys (Transaction.commit (claimIngestion sys.now locked workerId) sys.store).2
    exact { hstore with
      phases := fun claim h ↦ (mem_given h).imp id fun ⟨_, h⟩ ↦ claimIngestion_id h
      phases_subset := fun _ h ↦ mem_given_of_mem h }
  | claimPage locks workerId =>
    have hstore := System.Holds.ofStore sys (Transaction.commit (claimPage sys.now locks workerId) sys.store).2
    exact { hstore with
      pages := fun claim h ↦ (mem_given h).imp id fun ⟨_, h⟩ ↦ claimPage_id h }
  | claimAssembly locks workerId =>
    have hstore := System.Holds.ofStore sys (Transaction.commit (claimAssembly sys.now locks workerId) sys.store).2
    exact { hstore with
      phases := fun claim h ↦ (mem_given h).imp id fun ⟨_, h⟩ ↦ claimAssembly_id hkeyed.store h
      phases_subset := fun _ h ↦ mem_given_of_mem h }
  | claimObjectForDeletion locks =>
    have hstore := System.Holds.ofStore sys (Transaction.commit (claimObjectForDeletion sys.now locks) sys.store).2
    exact { hstore with
      deletions := fun deletion h ↦ (mem_given h).imp id fun ⟨_, h⟩ ↦
        claimObjectForDeletion_id hkeyed.owned h }
  | putBundle claim =>
    refine .ite (fun hheld ↦ { hsame with objects := fun key h ↦ ?_ }) hsame
    rcases List.mem_cons.1 h with rfl | h
    · exact .inr (.inl ⟨claim, hheld, rfl⟩)
    · exact .inl h
  | copyArtifact assembly key =>
    refine .ite (fun hheld ↦ { hsame with objects := fun other h ↦ ?_ }) hsame
    rcases List.mem_cons.1 h with rfl | h
    · exact .inr (.inr ⟨assembly, hheld.1, Assembly.jobId_of_mem_keys hheld.2⟩)
    · exact .inl h
  | deleteObject deletion =>
    refine .ite (fun hheld ↦ { hsame with objects := fun key h ↦ ?_ }) hsame
    exact .inl (List.mem_filter.1 h).1
  | stageArtifacts assembly =>
    have hstore := System.Holds.ofStore sys
      (Transaction.commit (SiteClone.stageArtifacts sys.now assembly.claim assembly.artifacts) sys.store).2
    refine .ite (fun hheld ↦ { hstore with staged := fun other h ↦ ?_ }) hsame
    dsimp only at h
    split_ifs at h
    · rcases List.mem_cons.1 h with rfl | h
      · exact .inr hheld.1
      · exact .inl h
    · exact .inl h
  | restageArtifacts assembly =>
    have hstore := System.Holds.ofStore sys
      (Transaction.commit (SiteClone.stageArtifacts sys.now assembly.claim assembly.artifacts) sys.store).2
    refine .ite (fun hheld ↦ { hstore with restaged := fun other h ↦ ?_ })
      hsame
    dsimp only at h
    split_ifs at h
    · rcases List.mem_cons.1 h with rfl | h
      · exact .inr hheld
      · exact .inl h
    · exact .inl h
  | verifyArtifacts assembly =>
    refine .ite (fun hheld ↦ { hsame with verified := fun other h ↦ ?_ }) hsame
    rcases List.mem_cons.1 h with rfl | h
    · exact .inr hheld.1
    · exact .inl h
  | reconcileCancellations locked => exact .ofStore sys _
  | acceptCommand envelope => exact .ite (fun _ ↦ .ofStore sys _) hsame
  | extendPhaseLease claim => exact .ite (fun _ ↦ .ofStore sys _) hsame
  | addTargets claim targets => exact .ite (fun _ ↦ .ofStore sys _) hsame
  | finishIngestion claim => exact .ite (fun _ ↦ .ofStore sys _) hsame
  | extendPageLease claim => exact .ite (fun _ ↦ .ofStore sys _) hsame
  | completePage claim bucket bytes sha256 inputBytes =>
    exact .ite (fun _ ↦ .ofStore sys _) hsame
  | failPage claim code => exact .ite (fun _ ↦ .ofStore sys _) hsame
  | publishArtifacts assembly => exact .ite (fun _ ↦ .ofStore sys _) hsame
  | retryIngestion claim code => exact .ite (fun _ ↦ .ofStore sys _) hsame
  | retryAssembly claim code => exact .ite (fun _ ↦ .ofStore sys _) hsame
  | completeObjectDeletion deletion => exact .ite (fun _ ↦ .ofStore sys _) hsame
  | retryObjectDeletion deletion => exact .ite (fun _ ↦ .ofStore sys _) hsame

/-! ### Objects of a clone -/

theorem SitePage.reclaim_bundle (now : Instant) (maxRetries : ℕ) (page : SitePage) :
    (page.reclaim now maxRetries).bundle = page.bundle := by
  unfold reclaim
  split_ifs <;> rfl

theorem SitePage.fail_bundle (now : Instant) (claim : ClaimedSitePage) (code : String)
    (page : SitePage) : (page.fail now claim code).bundle = page.bundle := by
  unfold fail
  split_ifs <;> rfl

/-- The objects are the same in both versions of a clone. -/
structure Clone.SameObjects (c c' : Clone) : Prop where
  id : c'.job.id = c.job.id
  artifacts : c'.artifacts.map SiteArtifact.object = c.artifacts.map SiteArtifact.object
  bundles : c'.pages.map SitePage.bundle = c.pages.map SitePage.bundle

theorem Clone.SameObjects.trans {c c' c'' : Clone} (h : c.SameObjects c')
    (h' : c'.SameObjects c'') : c.SameObjects c'' where
  id := h'.id.trans h.id
  artifacts := h'.artifacts.trans h.artifacts
  bundles := h'.bundles.trans h.bundles

theorem Clone.sameObjects_incrementJob (now : Instant) (messageId : Uuid) (succeeded : Bool)
    (inputBytes : ℕ) (c : Clone) :
    c.SameObjects (c.incrementJob now messageId succeeded inputBytes) := by
  unfold incrementJob
  dsimp only
  split_ifs
  · exact ⟨rfl, rfl, rfl⟩
  · exact ⟨rfl, rfl, rfl⟩

theorem Clone.sameObjects_finishIngestion (now : Instant) (c : Clone) :
    c.SameObjects (c.finishIngestion now) := by
  unfold finishIngestion
  split_ifs
  · exact ⟨rfl, rfl, rfl⟩
  · exact ⟨rfl, rfl, rfl⟩

theorem Clone.sameObjects_reclaim (now : Instant) (keys : List PageKey) (c : Clone) :
    c.SameObjects (c.reclaim now keys) :=
  ⟨rfl, rfl, Table.map_update _ fun page _ _ ↦ page.reclaim_bundle now _⟩

theorem Clone.sameObjects_failPage (now : Instant) (messageId : Uuid) (claim : ClaimedSitePage)
    (code : String) (c : Clone) : c.SameObjects (c.failPage now messageId claim code) := by
  have hfailed : c.SameObjects (c.updateHeld claim (SitePage.fail now claim code)) :=
    ⟨rfl, rfl, Table.map_update _ fun page _ _ ↦ page.fail_bundle now claim code⟩
  unfold failPage
  dsimp only
  split_ifs
  · exact hfailed
  · exact hfailed.trans (sameObjects_incrementJob now messageId false 0 _)

theorem Clone.sameObjects_abandonPhase (now : Instant) (messageId : Uuid)
    (claim : ClaimedSitePhase) (code : String) (c : Clone) :
    c.SameObjects (c.abandonPhase now messageId claim code) := by
  have hretried : c.SameObjects (c.retryPhase now claim code) := by
    unfold retryPhase
    split_ifs
    · exact ⟨rfl, rfl, rfl⟩
    · exact ⟨rfl, rfl, rfl⟩
  have habandoned : c.SameObjects ((c.retryPhase now claim code).updateArtifacts
      (SiteArtifact.isStagedIn claim.leaseGeneration) (SiteArtifact.abandon now)) :=
    hretried.trans ⟨rfl, Table.map_update _ fun _ _ _ ↦ rfl, rfl⟩
  unfold abandonPhase
  dsimp only
  split_ifs
  · exact habandoned.trans ⟨rfl, rfl, rfl⟩
  · exact habandoned

theorem Clone.sameObjects_startReconcile (now : Instant) (c : Clone) :
    c.SameObjects (c.startReconcile now) := by
  have hcancelled : c.SameObjects (if c.isOverdue now then c.exceedDeadline now else c) := by
    split_ifs
    · exact ⟨rfl, rfl, rfl⟩
    · exact ⟨rfl, rfl, rfl⟩
  unfold startReconcile
  dsimp only
  split_ifs at hcancelled ⊢
  all_goals first
    | exact hcancelled
    | exact hcancelled.trans ⟨rfl, rfl, Table.map_update _ fun _ _ _ ↦ rfl⟩

theorem Clone.sameObjects_finishReconcile (now : Instant) (messageId : Uuid) (c : Clone) :
    c.SameObjects (c.finishReconcile now messageId) := by
  unfold finishReconcile
  dsimp only
  split_ifs
  · exact ⟨rfl, rfl, rfl⟩
  · exact ⟨rfl, rfl, rfl⟩

theorem Clone.sameObjects_finishDeletion (now : Instant) (messageId artifactId : Uuid)
    (c : Clone) : c.SameObjects (c.finishDeletion now messageId artifactId) := by
  have hdeleted : c.SameObjects (c.deleteArtifact artifactId) :=
    ⟨rfl, Table.map_update _ fun _ _ _ ↦ rfl, rfl⟩
  unfold finishDeletion
  dsimp only
  split_ifs
  · exact hdeleted.trans ⟨rfl, rfl, rfl⟩
  · exact hdeleted

theorem Clone.OwnsKeys.same {c c' : Clone} (hc : c.OwnsKeys) (h : c.SameObjects c') :
    c'.OwnsKeys where
  artifacts := by
    intro row' hrow'
    have hmem : row'.object ∈ c.artifacts.map SiteArtifact.object :=
      h.artifacts ▸ List.mem_map_of_mem hrow'
    obtain ⟨row, hrow, heq⟩ := List.mem_map.1 hmem
    rw [← heq, h.id]
    exact hc.artifacts row hrow
  bundles := by
    intro page' hpage' object hobject
    have hmem : page'.bundle ∈ c.pages.map SitePage.bundle :=
      h.bundles ▸ List.mem_map_of_mem hpage'
    obtain ⟨page, hpage, heq⟩ := List.mem_map.1 hmem
    rw [h.id]
    exact hc.bundles page hpage object (heq.trans hobject)

theorem Clone.OwnsKeys.addTargets {c : Clone} (h : c.OwnsKeys) (now : Instant)
    (targets : List SiteTargetInput) : (c.addTargets now targets).OwnsKeys where
  artifacts := h.artifacts
  bundles := by
    obtain ⟨-, hpages⟩ := h
    unfold Clone.addTargets
    dsimp only
    generalize c.pages = pages at hpages
    induction targets generalizing pages with
    | nil => exact hpages
    | cons target targets ih =>
      rw [List.foldl_cons]
      refine ih _ fun page hpage object hobject ↦ ?_
      unfold insertTarget at hpage
      split_ifs at hpage
      · exact hpages page hpage object hobject
      · rcases List.mem_append.1 hpage with hpage | hpage
        · exact hpages page hpage object hobject
        · rw [List.mem_singleton.1 hpage] at hobject
          cases hobject

theorem Clone.OwnsKeys.stages {c c' : Clone} {now : Instant} {assembly : Assembly}
    (h : c.OwnsKeys) (hstages : Stages now assembly c c') : c'.OwnsKeys := by
  have hid := (Clone.isPhaseHeldBy_iff.1 (Clone.isPhaseLeasedBy_iff.1 hstages.leased).2.1).1
  obtain ⟨added, rfl, hrows, -, -⟩ := hstages.rows
  refine ⟨fun row hrow ↦ ?_, h.bundles⟩
  rcases List.mem_append.1 hrow with hrow | hrow
  · exact h.artifacts row hrow
  · obtain ⟨part, -, hobject⟩ := (hrows row hrow).part
    rw [hobject]
    exact hid.symm

/-- The bundle of a held page is under a key of its clone. -/
theorem Clone.OwnsKeys.succeed {c : Clone} (h : c.OwnsKeys) {claim : ClaimedSitePage}
    (hheld : c.isPageHeldBy claim = true) (now : Instant) (bucket : String) (bytes : ℕ)
    (sha256 : ByteString) (inputBytes : ℕ) :
    (c.updateHeld claim
      (SitePage.succeed now (claim.bundle bucket bytes sha256) inputBytes)).OwnsKeys where
  artifacts := h.artifacts
  bundles := by
    refine Table.forall_update h.bundles fun page _ _ object hobject ↦ ?_
    rw [← Option.some.inj hobject]
    exact (Clone.isPageHeldBy_iff.1 hheld).1.symm

/-- A step keeps the objects of the clone, or it brings targets, stages artifacts or stores the
bundle of a page. -/
theorem CaseStep.objects_cases {now : Instant} {c c' : Case} (h : CaseStep env now action c c') :
    c.clone.SameObjects c'.clone ∨
    (∃ targets, c'.clone = c.clone.addTargets now targets) ∨
    (∃ assembly, Stages now assembly c.clone c'.clone) ∨
    ∃ claim bucket bytes sha256 inputBytes, c.clone.isPageHeldBy claim = true ∧
      (c.clone.updateHeld claim
        (SitePage.succeed now (claim.bundle bucket bytes sha256) inputBytes)).SameObjects
          c'.clone := by
  cases h with
  | same | cancelled | ingestionClaimed | phaseExtended | bundlePut | emptyFailed | assemblyClaimed
  | copied | verified | objectDeleted => exact .inl ⟨rfl, rfl, rfl⟩
  | pageExtended | pageCancelled | bundleClaimed | bundleDeleted | bundlePostponed =>
    exact .inl ⟨rfl, rfl, Table.map_update _ fun _ _ _ ↦ rfl⟩
  | published | artifactClaimed | artifactPostponed =>
    exact .inl ⟨rfl, Table.map_update _ fun _ _ _ ↦ rfl, rfl⟩
  | targetsAdded => exact .inr (.inl ⟨_, rfl⟩)
  | ingestionFinished messageId hheld hstatus =>
    exact .inl ((c.clone.sameObjects_finishIngestion now).trans ⟨rfl, rfl, rfl⟩)
  | pagesReclaimed keys => exact .inl (c.clone.sameObjects_reclaim now keys)
  | pageClaimed hd hpage h =>
    rcases hd with rfl | ⟨keys, rfl⟩
    · exact .inl ⟨rfl, rfl, Table.map_update _ fun _ _ _ ↦ rfl⟩
    · exact .inl ((c.clone.sameObjects_reclaim now keys).trans
        ⟨rfl, rfl, Table.map_update _ fun _ _ _ ↦ rfl⟩)
  | @pageOverBudget claim =>
    have hfailed : c.clone.SameObjects (c.clone.updateHeld claim
        (SitePage.finish .failed "SITE_INPUT_BUDGET_EXCEEDED")) :=
      ⟨rfl, rfl, Table.map_update _ fun _ _ _ ↦ rfl⟩
    exact .inl (hfailed.trans (Clone.sameObjects_incrementJob _ _ _ _ _))
  | pageCompleted messageId hheld hstatus hbudget =>
    exact .inr (.inr (.inr ⟨_, _, _, _, _, hheld, Clone.sameObjects_incrementJob _ _ _ _ _⟩))
  | pageFailed messageId hclaim hheld =>
    exact .inl (c.clone.sameObjects_failPage now messageId _ _)
  | staged hclaim honly h => exact .inr (.inr (.inl ⟨_, h⟩))
  | restaged hverified h => exact .inr (.inr (.inl ⟨_, h⟩))
  | ingestionRetried messageId hheld hstatus =>
    exact .inl (c.clone.sameObjects_abandonPhase now messageId _ _)
  | assemblyRetried messageId hheld hstatus =>
    exact .inl (c.clone.sameObjects_abandonPhase now messageId _ _)
  | reconcileStarted => exact .inl (c.clone.sameObjects_startReconcile now)
  | reconciled messageId h =>
    exact .inl ((c.clone.sameObjects_startReconcile now).trans
      (Clone.sameObjects_finishReconcile now messageId _))
  | artifactDeleted messageId hheld hrow =>
    exact .inl (c.clone.sameObjects_finishDeletion now messageId _)

/-- The objects of a clone stay its own. -/
theorem CaseStep.ownsKeys {now : Instant} {c c' : Case} (h : CaseStep env now action c c')
    (hc : c.clone.OwnsKeys) : c'.clone.OwnsKeys := by
  rcases h.objects_cases with hsame | ⟨targets, heq⟩ | ⟨assembly, hstages⟩ |
    ⟨claim, bucket, bytes, sha256, inputBytes, hheld, hsame⟩
  · exact hc.same hsame
  · rw [heq]
    exact hc.addTargets now targets
  · exact hc.stages hstages
  · exact (hc.succeed hheld now bucket bytes sha256 inputBytes).same hsame

/-! ### Runs of cases -/

/-- The case of a clone that a command has just brought. -/
def Case.new (now : Instant) (hash : ByteString) (envelope : SiteCloneRequestedEnvelope) : Case where
  clone := { job := newSiteJob now hash envelope }

theorem Store.Keyed.accepted {s : Store} (h : s.Keyed) {now : Instant} {hash : ByteString}
    {envelope : SiteCloneRequestedEnvelope}
    (hfresh : ∀ c ∈ s.clones, c.job.id ≠ envelope.payload.siteCloneRequestId) :
    (s.accepted now hash envelope).Keyed := by
  have hmem : ∀ c' ∈ (s.accepted now hash envelope).clones, c' ∈ s.clones ∨
      c' = { job := newSiteJob now hash envelope } := by
    intro c' hc'
    rw [Store.accepted, List.mem_append, List.mem_singleton] at hc'
    exact hc'
  constructor
  · exact Table.nodup_map_concat h.ids hfresh
  · intro c' hc'
    rcases hmem c' hc' with hc | rfl
    · exact h.pages c' hc
    · exact List.nodup_nil
  · intro c' hc'
    rcases hmem c' hc' with hc | rfl
    · exact h.artifacts c' hc
    · exact List.nodup_nil
  · intro c' hc' row hrow
    rcases hmem c' hc' with hc | rfl
    · exact h.artifacts_lt c' hc row hrow
    · cases hrow
  · intro c' hc' event hevent
    rcases hmem c' hc' with hc | rfl
    · exact h.events_lt c' hc event hevent
    · cases hevent
  · intro c' hc' d' hd' event hevent other hother
    rcases hmem c' hc' with hc | rfl
    · rcases hmem d' hd' with hd | rfl
      · exact h.events c' hc d' hd event hevent other hother
      · cases hother
    · cases hevent

/-- The jobs that there are after a step. -/
theorem System.jobIds_step (env : Env) (hkeyed : sys.Keyed) (action : Action) {id : Uuid}
    (h : id ∈ sys.store.jobIds) : id ∈ (sys.step env action).store.jobIds := by
  rcases System.refines_step env hkeyed action with ⟨envelope, rfl, -, -, hash, heq⟩ | hrefines
  · rw [heq]
    change id ∈ (sys.store.clones ++ _).map _
    rw [List.map_append]
    exact List.mem_append_left _ h
  · rw [hrefines.jobIds]
    exact h

/-- A step keeps the keys. -/
theorem System.Keyed.step (env : Env) (hkeyed : sys.Keyed) (action : Action) :
    (sys.step env action).Keyed := by
  have hids : ∀ {id}, id ∈ sys.store.jobIds → id ∈ (sys.step env action).store.jobIds :=
    System.jobIds_step env hkeyed action
  have hholds := System.holds_step env hkeyed action
  have hstore : (sys.step env action).store.Keyed ∧
      ∀ c ∈ (sys.step env action).store.clones, c.OwnsKeys := by
    rcases System.refines_step env hkeyed action with
      ⟨envelope, rfl, hfresh, -, hash, heq⟩ | hrefines
    · rw [heq]
      refine ⟨hkeyed.store.accepted hfresh, fun c hc ↦ ?_⟩
      rcases List.mem_append.1 hc with hc | hc
      · exact hkeyed.owned c hc
      · rw [List.mem_singleton.1 hc]
        exact ⟨by simp, by simp⟩
    · refine ⟨hrefines.keyed hkeyed.store, fun c' hc' ↦ ?_⟩
      obtain ⟨c, hc, -, hstep⟩ := hrefines.exists_of_mem hc'
      exact hstep.ownsKeys (hkeyed.owned c hc)
  have hclaims : ∀ claim ∈ sys.phases, claim ∈ (sys.step env action).phases :=
    hholds.phases_subset
  constructor
  · exact hstore.1
  · exact hstore.2
  · exact fun claim h ↦ hids ((hholds.phases claim h).elim (hkeyed.phases claim) fun h ↦ h)
  · exact fun claim h ↦ hids ((hholds.pages claim h).elim (hkeyed.pages claim) fun h ↦ h)
  · intro deletion h
    have h := (hholds.deletions deletion h).elim (hkeyed.deletions deletion) fun h ↦ h
    exact ⟨hids h.1, h.2⟩
  · intro key h
    apply hids
    rcases hholds.objects key h with h | ⟨claim, hclaim, heq⟩ | ⟨assembly, hassembly, heq⟩
    · exact hkeyed.objects key h
    · exact heq ▸ hkeyed.pages claim hclaim
    · exact heq ▸ hkeyed.phases _ (hkeyed.staged assembly hassembly)
  · intro assembly h
    exact (hholds.staged assembly h).elim (fun h ↦ hclaims _ (hkeyed.staged assembly h))
      fun h ↦ hclaims _ h
  · intro assembly h
    exact (hholds.verified assembly h).elim (fun h ↦ hclaims _ (hkeyed.verified assembly h))
      fun h ↦ hclaims _ (hkeyed.staged assembly h)
  · intro assembly h
    exact (hholds.restaged assembly h).elim (fun h ↦ hclaims _ (hkeyed.restaged assembly h))
      fun h ↦ hclaims _ (hkeyed.verified assembly h)

/-- Every case takes a step when the system does. -/
theorem System.Keyed.exists_case (env : Env) (hkeyed : sys.Keyed) (action : Action) {c : Clone}
    (hc : c ∈ sys.store.clones) : ∃ c' ∈ (sys.step env action).store.clones,
      c'.job.id = c.job.id ∧
        CaseStep env sys.now action (sys.case c) ((sys.step env action).case c') := by
  rcases System.refines_step env hkeyed action with ⟨envelope, rfl, -, -, hash, heq⟩ | hrefines
  · rw [heq]
    exact ⟨c, List.mem_append_left _ hc, rfl, .same _ _⟩
  · exact hrefines.exists_of_mem_left hc

theorem filter_eq_nil_of_ne {α : Type} (key : α → Uuid) {id : Uuid} {held : List α}
    (h : ∀ a ∈ held, key a ≠ id) : held.filter (fun a ↦ decide (key a = id)) = [] := by
  refine List.filter_eq_nil_iff.2 fun a ha ↦ ?_
  rw [decide_eq_true_eq]
  exact h a ha

/-- A case after a step is one that took the step, or the case of a command. -/
theorem System.Keyed.case_cases (env : Env) (hkeyed : sys.Keyed) (action : Action) {c' : Clone}
    (hc' : c' ∈ (sys.step env action).store.clones) :
    (∃ c ∈ sys.store.clones, c'.job.id = c.job.id ∧
      CaseStep env sys.now action (sys.case c) ((sys.step env action).case c')) ∨
    ∃ hash envelope, envelope.payload.policy.isValid = true ∧
      (sys.step env action).case c' = .new sys.now hash envelope := by
  rcases System.refines_step env hkeyed action with
    ⟨envelope, rfl, hfresh, hvalid, hash, heq⟩ | hrefines
  · rw [heq] at hc' ⊢
    rcases List.mem_append.1 hc' with hc' | hc'
    · exact .inl ⟨c', hc', rfl, .same _ _⟩
    · obtain rfl := List.mem_singleton.1 hc'
      refine .inr ⟨hash, envelope, hvalid, ?_⟩
      have hnew : ∀ {id}, id ∈ sys.store.jobIds → id ≠ envelope.payload.siteCloneRequestId := by
        intro id hid
        obtain ⟨c, hc, rfl⟩ := List.mem_map.1 hid
        exact hfresh c hc
      have hassemblies : ∀ {assemblies : List Assembly},
          (∀ assembly ∈ assemblies, assembly.claim ∈ sys.phases) → assemblies.filter
            (fun assembly ↦ decide (assembly.claim.id = envelope.payload.siteCloneRequestId)) =
              [] := fun hclaims ↦ filter_eq_nil_of_ne (fun assembly ↦ assembly.claim.id) fun assembly h ↦
        hnew (hkeyed.phases _ (hclaims assembly h))
      have hobjects := filter_eq_nil_of_ne StorageKey.jobId fun key h ↦ hnew (hkeyed.objects key h)
      have hphases := filter_eq_nil_of_ne ClaimedSitePhase.id fun claim h ↦ hnew (hkeyed.phases claim h)
      have hpages := filter_eq_nil_of_ne ClaimedSitePage.jobId fun claim h ↦ hnew (hkeyed.pages claim h)
      have hdeletions := filter_eq_nil_of_ne ClaimedSiteObjectDeletion.jobId fun deletion h ↦
        hnew (hkeyed.deletions deletion h).1
      exact (Case.mk.injEq ..).mpr ⟨rfl, hobjects, hphases, hpages, hdeletions,
        hassemblies hkeyed.staged, hassemblies hkeyed.verified, hassemblies hkeyed.restaged⟩
  · exact .inl (hrefines.exists_of_mem hc')

theorem System.keyed_after (env : Env) (actions : List Action) :
    (System.after env actions).Keyed :=
  run_invariant (P := System.Keyed) (fun _ action h ↦ h.step env action) .empty actions

end WebLens.SiteClone
