import WebLens.Lib.Sha256
import WebLens.SiteClone.Stock

/-!
# Garbage collection of site clones

The collector may claim an artifact that is still staged, and the worker may publish it afterwards:
the deletion then takes the object away. This does not happen exactly in the runs in which every
publication finds its artifacts to be deleted a day after they were created, as staging left them.
-/

set_option autoImplicit false
set_option relaxedAutoImplicit false

namespace WebLens.SiteClone

open Lib Lib.Utf8 Lib.Transaction
open Capture (Uuid Instant Duration minute second day)

variable {env : Env} {action : Action} {now : Instant} {c c' : Case} {sys : System}

/-! ### Claimed artifacts -/

/-- The collector was given a claim of the artifact. -/
def Case.HasClaimed (c : Case) (artifactId : Uuid) : Prop :=
  ∃ jobId object, .artifact jobId artifactId object ∈ c.deletions

/-- The row can still be published: it is staged in the generation that has the lease. -/
def Clone.IsPublishable (d : Clone) (row : SiteArtifact) : Prop :=
  row.state = .staged ∧ row.generation = d.job.phaseLeaseGeneration ∧
    d.job.phaseLeaseOwner ≠ none

/-- What the collector holds is about objects of the case, and the claims of the rows that can be
published show in their deadlines. -/
structure Case.Collected (now : Instant) (c : Case) : Prop where
  artifact : ∀ jobId artifactId object, .artifact jobId artifactId object ∈ c.deletions →
    ∃ row ∈ c.clone.artifacts, row.id = artifactId ∧ row.object = object
  bundle : ∀ jobId pageId object, .pageBundle jobId pageId object ∈ c.deletions →
    object.key.isBundle = true
  publishable : ∀ row ∈ c.clone.artifacts, c.clone.IsPublishable row →
    ¬ c.HasClaimed row.id ∧ row.deleteAfter = row.createdAt + day ∨
      c.HasClaimed row.id ∧ row.createdAt + day ≤ now ∧ row.createdAt + day < row.deleteAfter
  stored : ∀ assembly ∈ c.verified, ∀ key ∈ assembly.keys,
    key ∈ c.objects ∨ ∃ deletion ∈ c.deletions, deletion.object.key = key

/-- The bundles of the pages are under keys of bundles. -/
def Clone.BundlesKeyed (d : Clone) : Prop :=
  ∀ page ∈ d.pages, ∀ object, page.bundle = some object → object.key.isBundle = true

theorem Clone.BundlesKeyed.same {d d' : Clone} (hd : d.BundlesKeyed) (h : d.SameObjects d') :
    d'.BundlesKeyed := by
  intro page' hpage' object hobject
  have hmem : page'.bundle ∈ d.pages.map SitePage.bundle :=
    h.bundles ▸ List.mem_map_of_mem hpage'
  obtain ⟨page, hpage, heq⟩ := List.mem_map.1 hmem
  exact hd page hpage object (heq.trans hobject)

theorem Clone.BundlesKeyed.addTargets {d : Clone} (hd : d.BundlesKeyed)
    (targets : List SiteTargetInput) : (d.addTargets now targets).BundlesKeyed := by
  have hfold : ∀ pages : List SitePage,
      (∀ page ∈ pages, ∀ object, page.bundle = some object → object.key.isBundle = true) →
      ∀ page ∈ targets.foldl (insertTarget now) pages, ∀ object, page.bundle = some object →
        object.key.isBundle = true := by
    induction targets with
    | nil => exact fun _ hpages ↦ hpages
    | cons target targets ih =>
      intro pages hpages
      rw [List.foldl_cons]
      refine ih _ fun page hpage object hobject ↦ ?_
      unfold insertTarget at hpage
      split_ifs at hpage
      · exact hpages page hpage object hobject
      · rcases List.mem_append.1 hpage with hpage | hpage
        · exact hpages page hpage object hobject
        · rw [List.mem_singleton.1 hpage] at hobject
          cases hobject
  exact hfold d.pages hd

theorem CaseStep.bundlesKeyed (h : CaseStep env now action c c') (hc : c.clone.BundlesKeyed) :
    c'.clone.BundlesKeyed := by
  rcases h.objects_cases with hsame | ⟨targets, heq⟩ | ⟨assembly, hstages⟩ |
    ⟨claim, bucket, bytes, sha256, inputBytes, hheld, hsame⟩
  · exact hc.same hsame
  · rw [heq]
    exact hc.addTargets targets
  · obtain ⟨added, heq, -⟩ := hstages.rows
    rw [heq]
    exact hc
  · have hsucceeded : (c.clone.updateHeld claim
        (SitePage.succeed now (claim.bundle bucket bytes sha256) inputBytes)).BundlesKeyed := by
      refine Table.forall_update hc fun page _ _ object hobject ↦ ?_
      rw [← Option.some.inj hobject]
      rfl
    exact hsucceeded.same hsame

theorem Case.Collected.new {hash : ByteString} {envelope : SiteCloneRequestedEnvelope} :
    (Case.new now hash envelope).Collected now := by
  constructor <;> simp [Case.new]

/-- Time passes. -/
theorem Case.Collected.mono {later : Instant} (hc : c.Collected now) (hle : now ≤ later) :
    c.Collected later :=
  { hc with
    publishable := fun row hrow h ↦ (hc.publishable row hrow h).imp (fun h ↦ h)
      fun ⟨hclaimed, hday, hlt⟩ ↦ ⟨hclaimed, hday.trans hle, hlt⟩ }

/-- A row can be published after a step that keeps the lease only if it could before. -/
theorem Clone.KeepsLease.isPublishable {d d' : Clone} (h : d.KeepsLease d') {row : SiteArtifact}
    (hrow : d'.IsPublishable row) : d.IsPublishable row := by
  obtain ⟨hstate, hgeneration, howner⟩ := hrow
  refine ⟨hstate, hgeneration.trans h.generation, fun hnone ↦ howner ?_⟩
  rcases h.owner with heq | heq
  · rw [heq, hnone]
  · exact heq

theorem Clone.not_isPublishable {d : Clone} (hnone : d.job.phaseLeaseOwner = none)
    (row : SiteArtifact) : ¬ d.IsPublishable row :=
  fun h ↦ h.2.2 hnone

/-- A key of an assembly is the key of an artifact. -/
theorem Assembly.isBundle_of_mem {assembly : Assembly} {key : StorageKey}
    (h : key ∈ assembly.keys) : key.isBundle = false := by
  unfold Assembly.keys Assembly.artifacts at h
  rw [List.map_map] at h
  obtain ⟨part, -, rfl⟩ := List.mem_map.1 h
  rfl

/-- A deletion of the object of a row is a claim of the row. -/
theorem Case.Collected.hasClaimed (hc : c.Collected now) (hassembled : c.Assembled)
    {row : SiteArtifact} (hrow : row ∈ c.clone.artifacts) {deletion : ClaimedSiteObjectDeletion}
    (hdeletion : deletion ∈ c.deletions) (hkey : deletion.object.key = row.object.key) :
    c.HasClaimed row.id := by
  cases deletion with
  | artifact jobId artifactId object =>
    obtain ⟨other, hother, hid, hobject⟩ := hc.artifact jobId artifactId object hdeletion
    have heq : other = row := by
      refine Table.eq_of_key_eq hassembled.keys hother hrow ?_
      rw [hobject]
      exact hkey
    rw [← heq, hid]
    exact ⟨jobId, object, hdeletion⟩
  | pageBundle jobId pageId object =>
    obtain ⟨assembly, -, -, hmem⟩ := hassembled.rows row hrow
    have hbundle := hc.bundle jobId pageId object hdeletion
    change object.key = row.object.key at hkey
    rw [hkey, Assembly.isBundle_of_mem hmem] at hbundle
    cases hbundle

/-- Rows that keep their identifiers and objects keep the deletions about rows. -/
theorem Case.Collected.artifact_update (hc : c.Collected now) {sel : SiteArtifact → Bool}
    (set : SiteArtifact → SiteArtifact) (hid : ∀ row, (set row).id = row.id)
    (hobject : ∀ row, (set row).object = row.object) :
    ∀ jobId artifactId object, .artifact jobId artifactId object ∈ c.deletions →
      ∃ row ∈ Table.update sel set c.clone.artifacts, row.id = artifactId ∧
        row.object = object := by
  intro jobId artifactId object hdeletion
  obtain ⟨row, hrow, rfl, rfl⟩ := hc.artifact jobId artifactId object hdeletion
  by_cases hsel : sel row = true
  · exact ⟨set row, Table.mem_update_of_sel hrow hsel, hid row, hobject row⟩
  · exact ⟨row, Table.mem_update_of_not hrow (Bool.eq_false_iff.2 hsel), rfl, rfl⟩

/-- The rows after staging: their claims show in their deadlines. -/
theorem Case.Collected.stages (hc : c.Collected now) {d : Clone} {assembly : Assembly}
    (h : Stages now assembly c.clone d) (hnodup : (d.artifacts.map SiteArtifact.id).Nodup) :
    (∀ jobId artifactId object, .artifact jobId artifactId object ∈ c.deletions →
      ∃ row ∈ d.artifacts, row.id = artifactId ∧ row.object = object) ∧
    ∀ row ∈ d.artifacts, d.IsPublishable row →
      ¬ c.HasClaimed row.id ∧ row.deleteAfter = row.createdAt + day ∨
        c.HasClaimed row.id ∧ row.createdAt + day ≤ now ∧
          row.createdAt + day < row.deleteAfter := by
  obtain ⟨added, rfl, hadded, -⟩ := h.rows
  refine ⟨fun jobId artifactId object hdeletion ↦ ?_, fun row hrow hpublishable ↦ ?_⟩
  · obtain ⟨row, hrow, h⟩ := hc.artifact jobId artifactId object hdeletion
    exact ⟨row, List.mem_append_left _ hrow, h⟩
  · rcases List.mem_append.1 hrow with hrow | hrow
    · exact hc.publishable row hrow hpublishable
    · refine .inl ⟨?_, ?_⟩
      · rintro ⟨jobId, object, hdeletion⟩
        obtain ⟨old, hold, hid, -⟩ := hc.artifact jobId row.id object hdeletion
        rw [List.map_append, List.nodup_append] at hnodup
        exact hnodup.2.2 _ (List.mem_map_of_mem hold) _ (List.mem_map_of_mem hrow) hid
      · rw [(hadded row hrow).deleteAfter, (hadded row hrow).createdAt]

/-- The claims of a case after one more deletion of a row. -/
theorem Case.hasClaimed_cons {deletion : ClaimedSiteObjectDeletion} {d : Clone} {artifactId : Uuid} :
    Case.HasClaimed { c with clone := d, deletions := deletion :: c.deletions } artifactId ↔
      (∃ jobId object, deletion = .artifact jobId artifactId object) ∨ c.HasClaimed artifactId := by
  constructor
  · rintro ⟨jobId, object, hmem⟩
    rcases List.mem_cons.1 hmem with heq | hmem
    · exact .inl ⟨jobId, object, heq.symm⟩
    · exact .inr ⟨jobId, object, hmem⟩
  · rintro (⟨jobId, object, heq⟩ | ⟨jobId, object, hmem⟩)
    · exact ⟨jobId, object, heq ▸ List.mem_cons_self⟩
    · exact ⟨jobId, object, List.mem_cons_of_mem _ hmem⟩

/-- A staged row that the collector claims is to be deleted later than a day after its creation. -/
theorem Case.Collected.publishable_claim (hc : c.Collected now)
    (hnodup : (c.clone.artifacts.map SiteArtifact.id).Nodup) {row : SiteArtifact}
    (hrow : row ∈ c.clone.artifacts) (hdue : row.isDue now = true) :
    ∀ row' ∈ Table.update (fun other ↦ decide (other.id = row.id)) (SiteArtifact.claim now)
      c.clone.artifacts, c.clone.IsPublishable row' →
      ¬ (row'.id = row.id ∨ c.HasClaimed row'.id) ∧ row'.deleteAfter = row'.createdAt + day ∨
        (row'.id = row.id ∨ c.HasClaimed row'.id) ∧ row'.createdAt + day ≤ now ∧
          row'.createdAt + day < row'.deleteAfter := by
  intro row' hrow' hpublishable
  obtain ⟨other, hother, heq⟩ := Table.mem_update.1 hrow'
  by_cases hid : other.id = row.id
  · rw [if_pos (decide_eq_true hid)] at heq
    obtain rfl := Table.eq_of_key_eq hnodup hother hrow hid
    subst heq
    obtain ⟨hstate, hgeneration, howner⟩ := hpublishable
    have hstaged : other.state = .staged := by
      by_contra hne
      unfold SiteArtifact.claim at hstate
      dsimp only at hstate
      rw [if_neg hne] at hstate
      cases hstate
    have hle : other.deleteAfter ≤ now :=
      of_decide_eq_true (Bool.and_eq_true_iff.1 hdue).2
    have hday : other.createdAt + day ≤ now := by
      rcases hc.publishable other hother ⟨hstaged, hgeneration, howner⟩ with
        ⟨-, heq⟩ | ⟨-, hday, -⟩
      · exact heq ▸ hle
      · exact hday
    refine .inr ⟨.inl rfl, hday, ?_⟩
    exact Nat.lt_of_le_of_lt hday (Nat.lt_add_of_pos_right (by decide))
  · rw [if_neg (by rwa [decide_eq_true_eq])] at heq
    subst heq
    rcases hc.publishable other hother hpublishable with ⟨hnot, heq⟩ | ⟨hclaimed, h⟩
    · exact .inl ⟨fun h ↦ h.elim hid hnot, heq⟩
    · exact .inr ⟨.inr hclaimed, h⟩

theorem StockStep.collected (h : StockStep now action c c') (hc : c.Collected now)
    (hassembled : c.Assembled) (hbundles : c.clone.BundlesKeyed)
    (hnodup : (c.clone.artifacts.map SiteArtifact.id).Nodup)
    (hnodup' : (c'.clone.artifacts.map SiteArtifact.id).Nodup) : c'.Collected now := by
  cases h with
  | @kept d objects pages hartifacts hlease hobjects =>
    exact {
      artifact := by
        change ∀ jobId artifactId object, _ → ∃ row ∈ d.artifacts, _
        rw [hartifacts]
        exact hc.artifact
      bundle := hc.bundle
      publishable := by
        intro row hrow hpublishable
        change row ∈ d.artifacts at hrow
        rw [hartifacts] at hrow
        exact hc.publishable row hrow (hlease.isPublishable hpublishable)
      stored := fun assembly h key hkey ↦ (hc.stored assembly h key hkey).imp (hobjects key)
        fun h ↦ h }
  | @leased d claim hartifacts hgeneration hclaim =>
    exact {
      artifact := by
        change ∀ jobId artifactId object, _ → ∃ row ∈ d.artifacts, _
        rw [hartifacts]
        exact hc.artifact
      bundle := hc.bundle
      publishable := by
        -- The rows are of earlier generations.
        intro row hrow hpublishable
        change row ∈ d.artifacts at hrow
        rw [hartifacts] at hrow
        obtain ⟨assembly, hassembly, heq, -⟩ := hassembled.rows row hrow
        have hle := hassembled.generation_le _ (hassembled.staged assembly hassembly)
        have hlease := hpublishable.2.1
        change row.generation = d.job.phaseLeaseGeneration at hlease
        rw [hgeneration, heq] at hlease
        omega
      stored := hc.stored }
  | staged hclaim honly h =>
    obtain ⟨hartifact, hpublishable⟩ := hc.stages h hnodup'
    exact ⟨hartifact, hc.bundle, hpublishable, hc.stored⟩
  | @verified assembly hstaged hkeys =>
    exact { hc with
      stored := fun other hother key hkey ↦ by
        rcases List.mem_cons.1 hother with rfl | hother
        · exact .inl (hkeys key hkey)
        · exact hc.stored other hother key hkey }
  | restaged hverified h =>
    obtain ⟨hartifact, hpublishable⟩ := hc.stages h hnodup'
    exact ⟨hartifact, hc.bundle, hpublishable, hc.stored⟩
  | @published d assembly retentionDays haction hrestaged hlease hbudget hartifacts
      hgeneration howner =>
    exact {
      artifact := by
        change ∀ jobId artifactId object, _ → ∃ row ∈ d.artifacts, _
        rw [hartifacts]
        exact hc.artifact_update _ (fun _ ↦ rfl) fun _ ↦ rfl
      bundle := hc.bundle
      publishable := fun row _ h ↦ absurd h (Clone.not_isPublishable howner row)
      stored := hc.stored }
  | @abandoned d generation hartifacts hgeneration howner =>
    exact {
      artifact := by
        change ∀ jobId artifactId object, _ → ∃ row ∈ d.artifacts, _
        rw [hartifacts]
        exact hc.artifact_update _ (fun _ ↦ rfl) fun _ ↦ rfl
      bundle := hc.bundle
      publishable := fun row _ h ↦ absurd h (Clone.not_isPublishable howner row)
      stored := hc.stored }
  | @artifactClaimed row hrow hdue =>
    have hclaimed : ∀ artifactId, (∃ jobId object, ClaimedSiteObjectDeletion.artifact
        c.clone.job.id row.id row.object = .artifact jobId artifactId object) ↔
          artifactId = row.id := by
      intro artifactId
      constructor
      · rintro ⟨jobId, object, heq⟩
        exact (ClaimedSiteObjectDeletion.artifact.inj heq).2.1.symm
      · rintro rfl
        exact ⟨_, _, rfl⟩
    constructor
    · intro jobId artifactId object hdeletion
      rcases List.mem_cons.1 hdeletion with heq | hdeletion
      · obtain ⟨-, rfl, rfl⟩ := ClaimedSiteObjectDeletion.artifact.inj heq
        exact ⟨_, Table.mem_update_of_sel hrow (decide_eq_true rfl), rfl, rfl⟩
      · exact hc.artifact_update (SiteArtifact.claim now) (fun _ ↦ rfl) (fun _ ↦ rfl) jobId artifactId
          object hdeletion
    · intro jobId pageId object hdeletion
      rcases List.mem_cons.1 hdeletion with heq | hdeletion
      · cases heq
      · exact hc.bundle jobId pageId object hdeletion
    · intro row' hrow' hpublishable
      rw [Case.hasClaimed_cons, hclaimed]
      exact hc.publishable_claim hnodup hrow hdue row' hrow' hpublishable
    · exact fun assembly h key hkey ↦ (hc.stored assembly h key hkey).imp (fun h ↦ h)
        fun ⟨deletion, h, heq⟩ ↦ ⟨deletion, List.mem_cons_of_mem _ h, heq⟩
  | @bundleClaimed d page object hartifacts hlease hpage hobject =>
    constructor
    · intro jobId artifactId other hdeletion
      change ∃ row ∈ d.artifacts, _
      rw [hartifacts]
      rcases List.mem_cons.1 hdeletion with heq | hdeletion
      · cases heq
      · exact hc.artifact jobId artifactId other hdeletion
    · intro jobId pageId other hdeletion
      rcases List.mem_cons.1 hdeletion with heq | hdeletion
      · obtain ⟨-, -, rfl⟩ := ClaimedSiteObjectDeletion.pageBundle.inj heq
        exact hbundles page hpage other hobject
      · exact hc.bundle jobId pageId other hdeletion
    · intro row hrow hpublishable
      change row ∈ d.artifacts at hrow
      rw [hartifacts] at hrow
      have hsame : ∀ artifactId, Case.HasClaimed { c with
          clone := d
          deletions := .pageBundle c.clone.job.id page.pageId object :: c.deletions } artifactId ↔
            c.HasClaimed artifactId := by
        intro artifactId
        rw [Case.hasClaimed_cons]
        refine or_iff_right ?_
        rintro ⟨jobId, other, heq⟩
        cases heq
      rw [hsame]
      exact hc.publishable row hrow (hlease.isPublishable hpublishable)
    · exact fun assembly h key hkey ↦ (hc.stored assembly h key hkey).imp (fun h ↦ h)
        fun ⟨deletion, h, heq⟩ ↦ ⟨deletion, List.mem_cons_of_mem _ h, heq⟩
  | @objectDeleted deletion hheld =>
    exact { hc with
      stored := fun assembly h key hkey ↦ by
        rcases hc.stored assembly h key hkey with hstored | hdeleted
        · by_cases heq : key = deletion.object.key
          · exact .inr ⟨deletion, hheld, heq.symm⟩
          · exact .inl (List.mem_filter.2 ⟨hstored, decide_eq_true heq⟩)
        · exact .inr hdeleted }
  | @artifactDeleted d artifactId hartifacts hlease =>
    constructor
    · change ∀ jobId artifactId object, _ → ∃ row ∈ d.artifacts, _
      rw [hartifacts]
      exact hc.artifact_update _ (fun _ ↦ rfl) fun _ ↦ rfl
    · exact hc.bundle
    · intro row hrow hpublishable
      change row ∈ d.artifacts at hrow
      rw [hartifacts] at hrow
      obtain ⟨other, hother, heq⟩ := Table.mem_update.1 hrow
      split_ifs at heq
      · have hstate := hpublishable.1
        rw [← heq] at hstate
        cases hstate
      · subst heq
        exact hc.publishable other hother (hlease.isPublishable hpublishable)
    · exact hc.stored
  | @artifactPostponed artifactId object hheld =>
    constructor
    · exact hc.artifact_update _ (fun _ ↦ rfl) fun _ ↦ rfl
    · exact hc.bundle
    · intro row hrow hpublishable
      obtain ⟨other, hother, heq⟩ := Table.mem_update.1 hrow
      by_cases hsel : other.isDeletable artifactId = true
      · rw [if_pos hsel] at heq
        subst heq
        have hid : other.id = artifactId := of_decide_eq_true (Bool.and_eq_true_iff.1 hsel).1
        rcases hc.publishable other hother hpublishable with ⟨hnot, -⟩ | ⟨hclaimed, hday, -⟩
        · exact absurd ⟨_, object, hid ▸ hheld⟩ hnot
        · refine .inr ⟨hclaimed, hday, ?_⟩
          exact Nat.lt_of_le_of_lt hday (Nat.lt_add_of_pos_right (by decide))
      · rw [if_neg hsel] at heq
        subst heq
        exact hc.publishable other hother hpublishable
    · exact hc.stored

/-! ### Published artifacts -/

/-- A published artifact is in the storage, and the collector has no claim of it. -/
def Case.Downloadable (c : Case) : Prop :=
  ∀ row ∈ c.clone.artifacts, row.state = .published →
    ¬ c.HasClaimed row.id ∧ row.object.key ∈ c.objects

/-- The rows that the claim of an assembly publishes are to be deleted a day after they were
created. -/
def Clone.IsFresh (claim : ClaimedSitePhase) (d : Clone) : Prop :=
  ∀ row ∈ d.artifacts, row.isStagedIn claim.leaseGeneration = true →
    row.deleteAfter = row.createdAt + day

/-- While its claim has the lease, what an assembly staged can be published. -/
theorem Clone.isPublishable_of_isPhaseLeasedBy {d : Clone} {claim : ClaimedSitePhase}
    {phase : JobStatus} (hlease : d.isPhaseLeasedBy now phase claim = true) {row : SiteArtifact}
    (hrow : row.isStagedIn claim.leaseGeneration = true) : d.IsPublishable row := by
  obtain ⟨-, howner, hgeneration⟩ :=
    Clone.isPhaseHeldBy_iff.1 (Clone.isPhaseLeasedBy_iff.1 hlease).2.1
  obtain ⟨hrowGeneration, hstate⟩ := Bool.and_eq_true_iff.1 hrow
  refine ⟨of_decide_eq_true hstate, ?_, ?_⟩
  · rw [of_decide_eq_true hrowGeneration, hgeneration]
  · rw [howner]
    exact Option.some_ne_none _

/-- A row that an assembly may publish is unclaimed exactly when its deadline is that of staging. -/
theorem Case.Collected.not_hasClaimed_iff (hc : c.Collected now) {row : SiteArtifact}
    (hrow : row ∈ c.clone.artifacts) (hpublishable : c.clone.IsPublishable row) :
    ¬ c.HasClaimed row.id ↔ row.deleteAfter = row.createdAt + day := by
  rcases hc.publishable row hrow hpublishable with ⟨hnot, heq⟩ | ⟨hclaimed, -, hlt⟩
  · exact iff_of_true hnot heq
  · exact iff_of_false (not_not_intro hclaimed) hlt.ne'

/-- Staging neither publishes nor claims. -/
theorem Case.Downloadable.stages (hc : c.Downloadable) {d : Clone} {assembly : Assembly}
    (h : Stages now assembly c.clone d) : (c.set d).Downloadable := by
  obtain ⟨added, rfl, hadded, -⟩ := h.rows
  intro row hrow hpublished
  rcases List.mem_append.1 hrow with hrow | hrow
  · exact hc row hrow hpublished
  · rw [(hadded row hrow).state] at hpublished
    cases hpublished

/-- An update that publishes no row keeps the published rows. -/
theorem Case.Downloadable.update (hc : c.Downloadable) {d : Clone} {sel : SiteArtifact → Bool}
    {set : SiteArtifact → SiteArtifact}
    (hartifacts : d.artifacts = Table.update sel set c.clone.artifacts)
    (hset : ∀ row, sel row = true → (set row).state ≠ .published) : (c.set d).Downloadable := by
  intro row hrow hpublished
  change row ∈ d.artifacts at hrow
  rw [hartifacts] at hrow
  obtain ⟨other, hother, rfl⟩ := Table.mem_update.1 hrow
  split_ifs at hpublished ⊢ with hsel
  · exact absurd hpublished (hset other hsel)
  · exact hc other hother hpublished

theorem SiteArtifact.state_ne_of_isDeletable {row : SiteArtifact} {artifactId : Uuid}
    (h : row.isDeletable artifactId = true) : row.state ≠ .published := by
  simp only [SiteArtifact.isDeletable, Bool.and_eq_true, Bool.or_eq_true, decide_eq_true_eq] at h
  rcases h.2 with hstate | hstate <;> rw [hstate] <;> decide

/-- Published artifacts stay in the storage, when only fresh rows are published. -/
theorem StockStep.downloadable (h : StockStep now action c c') (hc : c.Downloadable)
    (hcollected : c.Collected now) (hassembled : c.Assembled)
    (hfresh : ∀ assembly, action = .publishArtifacts assembly → assembly ∈ c.restaged →
      totalBytes assembly.artifacts ≤ assembly.claim.policy.maxArchiveBytes →
      c.clone.isPhaseLeasedBy now .assembling assembly.claim = true →
        c.clone.IsFresh assembly.claim) :
    c'.Downloadable := by
  cases h with
  | @kept d objects pages hartifacts hlease hobjects =>
    intro row hrow hpublished
    change row ∈ d.artifacts at hrow
    rw [hartifacts] at hrow
    exact ⟨(hc row hrow hpublished).1, hobjects _ (hc row hrow hpublished).2⟩
  | @leased d claim hartifacts hgeneration hclaim =>
    intro row hrow hpublished
    change row ∈ d.artifacts at hrow
    rw [hartifacts] at hrow
    exact hc row hrow hpublished
  | staged hclaim honly h => exact hc.stages h
  | verified hstaged hkeys => exact hc
  | restaged hverified h => exact hc.stages h
  | @published d assembly retentionDays haction hrestaged hlease hbudget hartifacts
      hgeneration howner =>
    have hfresh := hfresh assembly haction hrestaged hbudget hlease
    intro row hrow hpublished
    change row ∈ d.artifacts at hrow
    rw [hartifacts] at hrow
    obtain ⟨other, hother, rfl⟩ := Table.mem_update.1 hrow
    by_cases hsel : other.isStagedIn assembly.claim.leaseGeneration = true
    · rw [if_pos hsel]
      have hnot : ¬ c.HasClaimed other.id := (hcollected.not_hasClaimed_iff hother
        (Clone.isPublishable_of_isPhaseLeasedBy hlease hsel)).2 (hfresh other hother hsel)
      refine ⟨hnot, ?_⟩
      -- The object was verified, and a deletion of it would be a claim of the row.
      have hverified := hassembled.restaged assembly hrestaged
      obtain ⟨maker, hmaker, hgenerationEq, hkey⟩ := hassembled.rows other hother
      have hsame : maker.claim.leaseGeneration = assembly.claim.leaseGeneration :=
        hgenerationEq.symm.trans (of_decide_eq_true (Bool.and_eq_true_iff.1 hsel).1)
      obtain rfl := hassembled.eq_of_generation hmaker (hassembled.verified _ hverified) hsame
      rcases hcollected.stored maker hverified _ hkey with hstored | ⟨deletion, hdeletion, heq⟩
      · exact hstored
      · exact absurd (hcollected.hasClaimed hassembled hother hdeletion heq) hnot
    · rw [if_neg hsel] at hpublished ⊢
      exact hc other hother hpublished
  | @abandoned d generation hartifacts hgeneration howner =>
    refine hc.update hartifacts fun row hsel heq ↦ ?_
    have hstate : row.state = .staged := of_decide_eq_true (Bool.and_eq_true_iff.1 hsel).2
    change row.state = .published at heq
    rw [hstate] at heq
    cases heq
  | @artifactClaimed row hrow hdue =>
    intro row' hrow' hpublished
    obtain ⟨other, hother, rfl⟩ := Table.mem_update.1 hrow'
    by_cases hid : other.id = row.id
    · rw [if_pos (decide_eq_true hid)] at hpublished
      unfold SiteArtifact.claim at hpublished
      dsimp only at hpublished
      split_ifs at hpublished
    · rw [if_neg (by rwa [decide_eq_true_eq])] at hpublished ⊢
      rw [Case.hasClaimed_cons]
      refine ⟨?_, (hc other hother hpublished).2⟩
      rintro (⟨jobId, object, heq⟩ | hclaimed)
      · exact hid (ClaimedSiteObjectDeletion.artifact.inj heq).2.1.symm
      · exact (hc other hother hpublished).1 hclaimed
  | @bundleClaimed d page object hartifacts hlease hpage hobject =>
    intro row hrow hpublished
    change row ∈ d.artifacts at hrow
    rw [hartifacts] at hrow
    rw [Case.hasClaimed_cons]
    refine ⟨?_, (hc row hrow hpublished).2⟩
    rintro (⟨jobId, other, heq⟩ | hclaimed)
    · cases heq
    · exact (hc row hrow hpublished).1 hclaimed
  | @objectDeleted deletion hheld =>
    intro row hrow hpublished
    obtain ⟨hnot, hstored⟩ := hc row hrow hpublished
    refine ⟨hnot, List.mem_filter.2 ⟨hstored, decide_eq_true fun heq ↦ hnot ?_⟩⟩
    exact hcollected.hasClaimed hassembled hrow hheld heq.symm
  | artifactDeleted hartifacts hlease =>
    exact hc.update hartifacts fun row _ heq ↦ by cases heq
  | artifactPostponed hheld =>
    exact hc.update rfl fun row hsel ↦ SiteArtifact.state_ne_of_isDeletable hsel

/-! ### Runs -/

theorem System.now_le_step (env : Env) (sys : System) (action : Action) :
    sys.now ≤ (sys.step env action).now := by
  cases action with
  | tick duration => exact Nat.le_add_right _ _
  | claimIngestion | claimPage | claimAssembly | reconcileCancellations
  | claimObjectForDeletion => exact le_refl _
  | _ =>
    dsimp only [System.step]
    split_ifs <;> exact le_refl _

/-- The stock of every case. -/
structure System.Stocked (sys : System) : Prop where
  keyed : sys.Keyed
  assembled : ∀ c ∈ sys.store.clones, (sys.case c).Assembled
  bundles : ∀ c ∈ sys.store.clones, c.BundlesKeyed
  collected : ∀ c ∈ sys.store.clones, (sys.case c).Collected sys.now

theorem System.Stocked.empty : System.Stocked {} :=
  ⟨.empty, fun _ h ↦ (by cases h), fun _ h ↦ (by cases h), fun _ h ↦ (by cases h)⟩

theorem System.Stocked.step (env : Env) (h : sys.Stocked) (action : Action) :
    (sys.step env action).Stocked := by
  have hkeyed' := h.keyed.step env action
  refine ⟨hkeyed', fun c' hc' ↦ ?_, fun c' hc' ↦ ?_, fun c' hc' ↦ ?_⟩
  · rcases h.keyed.case_cases env action hc' with ⟨c, hc, -, hstep⟩ | ⟨hash, envelope, -, heq⟩
    · exact hstep.stock.assembled (h.assembled c hc)
    · rw [heq]
      exact .new
  · rcases h.keyed.case_cases env action hc' with ⟨c, hc, -, hstep⟩ | ⟨hash, envelope, -, heq⟩
    · exact hstep.bundlesKeyed (h.bundles c hc)
    · have hnone : c'.pages = [] := congrArg (fun d : Case ↦ d.clone.pages) heq
      intro page hpage
      rw [hnone] at hpage
      cases hpage
  · refine Case.Collected.mono ?_ (System.now_le_step env sys action)
    rcases h.keyed.case_cases env action hc' with ⟨c, hc, -, hstep⟩ | ⟨hash, envelope, -, heq⟩
    · exact hstep.stock.collected (h.collected c hc) (h.assembled c hc) (h.bundles c hc)
        (h.keyed.store.artifacts c hc) (hkeyed'.store.artifacts c' hc')
    · rw [heq]
      exact .new

theorem System.stocked_after (env : Env) (actions : List Action) :
    (System.after env actions).Stocked :=
  run_invariant (P := System.Stocked) (fun _ action h ↦ h.step env action) .empty actions

/-! ### Publications -/

/-- The collector was given a claim of the artifact of the job. -/
def System.HasClaimed (sys : System) (jobId artifactId : Uuid) : Prop :=
  ∃ object, .artifact jobId artifactId object ∈ sys.deletions

theorem System.case_hasClaimed {d : Clone} {artifactId : Uuid} :
    (sys.case d).HasClaimed artifactId ↔ sys.HasClaimed d.job.id artifactId := by
  constructor
  · rintro ⟨jobId, object, hmem⟩
    obtain ⟨hmem, hid⟩ := List.mem_filter.1 hmem
    have hid : jobId = d.job.id := of_decide_eq_true hid
    exact ⟨object, hid ▸ hmem⟩
  · rintro ⟨object, hmem⟩
    exact ⟨d.job.id, object, List.mem_filter.2 ⟨hmem, decide_eq_true rfl⟩⟩

/-- An artifact of the job that was not published is published. -/
def BecomesPublished (s s' : Store) (jobId artifactId : Uuid) : Prop :=
  ∃ c ∈ s.clones, ∃ c' ∈ s'.clones, c.job.id = jobId ∧ c'.job.id = jobId ∧
    ∃ row ∈ c.artifacts, ∃ row' ∈ c'.artifacts, row.id = artifactId ∧ row'.id = artifactId ∧
      row.state ≠ .published ∧ row'.state = .published

/-- The step does not publish an artifact that the collector has claimed, the collector claims a
published artifact at its deadline at the earliest, and afterwards every published artifact that has
not expired is in the storage. -/
structure System.CollectsSafely (env : Env) (sys : System) (action : Action) : Prop where
  publish : ∀ jobId artifactId,
    BecomesPublished sys.store (sys.step env action).store jobId artifactId →
      ¬ sys.HasClaimed jobId artifactId
  claim : ∀ locks jobId artifactId object, action = .claimObjectForDeletion locks →
    (Transaction.commit (claimObjectForDeletion sys.now locks) sys.store).1 =
      .ok (some (.artifact jobId artifactId object)) →
    ∀ c ∈ sys.store.clones, c.job.id = jobId → ∀ row ∈ c.artifacts, row.id = artifactId →
      row.state = .published → row.deleteAfter ≤ sys.now
  download : ∀ c ∈ (sys.step env action).store.clones, ∀ row ∈ c.artifacts,
    row.state = .published → (sys.step env action).now < row.deleteAfter →
      row.object.key ∈ (sys.step env action).objects

/-- A publication that passes its checks finds its artifacts to be deleted a day after they were
created. -/
def System.PublishesFresh (sys : System) (action : Action) : Prop :=
  ∀ assembly, action = .publishArtifacts assembly → assembly ∈ sys.restaged →
    totalBytes assembly.artifacts ≤ assembly.claim.policy.maxArchiveBytes →
    ∀ c ∈ sys.store.clones, c.isPhaseLeasedBy sys.now .assembling assembly.claim = true →
      c.IsFresh assembly.claim

/-- The collector claims what is due. -/
theorem System.Stocked.claim (h : sys.Stocked) {locks : DeletionLocks} {jobId artifactId : Uuid}
    {object : StoredObject} (hclaim : (Transaction.commit
      (claimObjectForDeletion sys.now locks) sys.store).1 =
        .ok (some (.artifact jobId artifactId object))) {c : Clone} (hc : c ∈ sys.store.clones)
    (hid : c.job.id = jobId) {row : SiteArtifact} (hrow : row ∈ c.artifacts)
    (hrowId : row.id = artifactId) : row.deleteAfter ≤ sys.now := by
  rcases commit_cases (claimObjectForDeletion sys.now locks) sys.store with
    ⟨result, s', heq, hreturns⟩ | ⟨e, heq⟩
  · rw [heq] at hclaim
    obtain rfl := Except.ok.inj hclaim
    obtain ⟨c', -, -, ⟨-, hother⟩ | ⟨a, ha, -, hclaimed⟩⟩ :=
      (moves_claimObjectForDeletion h.keyed.store hreturns).exists_of_mem_left hc
    · exact absurd hid.symm (hother _ rfl)
    · obtain rfl := Option.some.inj ha
      rcases hclaimed with ⟨due, hmem, hdue, heq, -⟩ | ⟨page, -, -, other, -, heq, -⟩
      · have hdueId := (ClaimedSiteObjectDeletion.artifact.inj heq).2.1
        obtain rfl := Table.eq_of_key_eq (h.keyed.store.artifacts c hc) hrow hmem
          (hrowId.trans hdueId)
        exact of_decide_eq_true (Bool.and_eq_true_iff.1 hdue).2
      · cases heq
  · rw [heq] at hclaim
    cases hclaim

/-- Artifacts are published by a publication under the lease of its assembly only. -/
theorem StockStep.published_cases (h : StockStep now action c c') :
    (∀ row' ∈ c'.clone.artifacts, row'.state = .published →
      ∃ row ∈ c.clone.artifacts, row.id = row'.id ∧ row.state = .published) ∨
    ∃ assembly retentionDays, action = .publishArtifacts assembly ∧ assembly ∈ c.restaged ∧
      c.clone.isPhaseLeasedBy now .assembling assembly.claim = true ∧
      totalBytes assembly.artifacts ≤ assembly.claim.policy.maxArchiveBytes ∧
      c'.clone.artifacts = Table.update (SiteArtifact.isStagedIn assembly.claim.leaseGeneration)
        (SiteArtifact.publish now retentionDays) c.clone.artifacts := by
  have hsame : ∀ {d : Clone}, d.artifacts = c.clone.artifacts →
      ∀ row' ∈ d.artifacts, row'.state = .published →
        ∃ row ∈ c.clone.artifacts, row.id = row'.id ∧ row.state = .published := by
    intro d hartifacts row' hrow' hpublished
    exact ⟨row', hartifacts ▸ hrow', rfl, hpublished⟩
  have hstages : ∀ {d : Clone} {assembly : Assembly}, Stages now assembly c.clone d →
      ∀ row' ∈ d.artifacts, row'.state = .published →
        ∃ row ∈ c.clone.artifacts, row.id = row'.id ∧ row.state = .published := by
    intro d assembly h row' hrow' hpublished
    obtain ⟨added, rfl, hadded, -⟩ := h.rows
    rcases List.mem_append.1 hrow' with hrow' | hrow'
    · exact ⟨row', hrow', rfl, hpublished⟩
    · rw [(hadded row' hrow').state] at hpublished
      cases hpublished
  have hupdate : ∀ {d : Clone} {sel : SiteArtifact → Bool} {set : SiteArtifact → SiteArtifact},
      d.artifacts = Table.update sel set c.clone.artifacts →
      (∀ row, sel row = true → (set row).state ≠ .published) →
      ∀ row' ∈ d.artifacts, row'.state = .published →
        ∃ row ∈ c.clone.artifacts, row.id = row'.id ∧ row.state = .published := by
    intro d sel set hartifacts hset row' hrow' hpublished
    rw [hartifacts] at hrow'
    obtain ⟨row, hrow, rfl⟩ := Table.mem_update.1 hrow'
    by_cases hsel : sel row = true
    · rw [if_pos hsel] at hpublished
      exact absurd hpublished (hset row hsel)
    · rw [if_neg hsel] at hpublished ⊢
      exact ⟨row, hrow, rfl, hpublished⟩
  cases h with
  | kept hartifacts hlease hobjects => exact .inl (hsame hartifacts)
  | leased hartifacts hgeneration hclaim => exact .inl (hsame hartifacts)
  | staged hclaim honly h => exact .inl (hstages h)
  | verified hstaged hkeys => exact .inl (hsame rfl)
  | restaged hverified h => exact .inl (hstages h)
  | published retentionDays haction hrestaged hlease hbudget hartifacts
      hgeneration howner =>
    exact .inr ⟨_, retentionDays, haction, hrestaged, hlease, hbudget, hartifacts⟩
  | abandoned generation hartifacts hgeneration howner =>
    refine .inl (hupdate hartifacts fun row hsel heq ↦ ?_)
    have hstate : row.state = .staged := of_decide_eq_true (Bool.and_eq_true_iff.1 hsel).2
    change row.state = .published at heq
    rw [hstate] at heq
    cases heq
  | @artifactClaimed row hrow hdue =>
    refine .inl (hupdate rfl fun other hsel heq ↦ ?_)
    unfold SiteArtifact.claim at heq
    dsimp only at heq
    split_ifs at heq
  | bundleClaimed hartifacts hlease hpage hobject => exact .inl (hsame hartifacts)
  | objectDeleted hheld => exact .inl (hsame rfl)
  | artifactDeleted hartifacts hlease =>
    exact .inl (hupdate hartifacts fun row _ heq ↦ by cases heq)
  | artifactPostponed hheld =>
    exact .inl (hupdate rfl fun row hsel ↦ SiteArtifact.state_ne_of_isDeletable hsel)

theorem System.mem_case_restaged {d : Clone} {assembly : Assembly}
    (h : assembly ∈ (sys.case d).restaged) : assembly ∈ sys.restaged :=
  (List.mem_filter.1 h).1

/-- A publication goes through if the lease is held and the artifacts keep to the budget. -/
theorem exists_publishStaged {s : Store} {claim : ClaimedSitePhase}
    {artifacts : List SiteArtifactInput} {d : Clone} (hkeyed : s.Keyed) (hd : d ∈ s.clones)
    (hlease : d.isPhaseLeasedBy now .assembling claim = true)
    (hbudget : totalBytes artifacts ≤ claim.policy.maxArchiveBytes) :
    ∃ s' messageId, Returns (publishStaged now claim artifacts) s () s' ∧
      (d.publish now claim artifacts).withEvent now messageId d.terminalStatus ∈ s'.clones := by
  have hid := (Clone.isPhaseHeldBy_iff.1 (Clone.isPhaseLeasedBy_iff.1 hlease).2.1).1
  obtain ⟨e, he⟩ : ∃ e, s.clones.find? (Clone.isPhaseLeasedBy now .assembling claim) = some e := by
    rw [← Option.isSome_iff_exists, List.find?_isSome]
    exact ⟨d, hd, hlease⟩
  have heq : e = d := by
    have hlease' : e.isPhaseLeasedBy now .assembling claim = true := List.find?_some he
    exact hkeyed.eq (List.mem_of_find?_eq_some he) hd
      ((Clone.isPhaseHeldBy_iff.1 (Clone.isPhaseLeasedBy_iff.1 hlease').2.1).1.trans hid.symm)
  subst heq
  have hpublished : e.publish now claim artifacts ∈
      Table.update (Clone.hasId claim.id) (Clone.publish now claim artifacts) s.clones :=
    Table.mem_update_of_sel hd (Clone.hasId_iff.2 hid)
  have hpublishedId : (e.publish now claim artifacts).hasId claim.id = true :=
    Clone.hasId_iff.2 hid
  refine ⟨{ s with
    nextUuid := s.nextUuid + 1
    clones := Table.update (Clone.hasId claim.id)
      (Clone.withEvent now s.nextUuid e.terminalStatus)
      (Table.update (Clone.hasId claim.id) (Clone.publish now claim artifacts) s.clones) },
    s.nextUuid, ?_, Table.mem_update_of_sel hpublished hpublishedId⟩
  simp only [publishStaged, enqueueEvent, returns_bind, returns_get, returns_found,
    returns_require, returns_updateClone, returns_newUuid, exists_and_left, exists_eq_left,
    exists_const, and_assoc]
  exact ⟨e, he, hbudget, ⟨e, hd, hid⟩, ⟨_, hpublished, hid⟩, rfl⟩

/-- A publication publishes no claimed artifact exactly when it is fresh. -/
theorem System.Stocked.publishesFresh_iff (env : Env) (h : sys.Stocked) :
    sys.PublishesFresh action ↔ ∀ jobId artifactId,
      BecomesPublished sys.store (sys.step env action).store jobId artifactId →
        ¬ sys.HasClaimed jobId artifactId := by
  constructor
  · rintro hfresh jobId artifactId
      ⟨c, hc, c', hc', hid, hid', row, hrow, row', hrow', hrowId, hrowId', hnot, hstate⟩
    obtain ⟨c₁, hc₁, hid₁, hstep⟩ := h.keyed.exists_case env action hc
    obtain rfl := (h.keyed.step env action).store.eq hc₁ hc'
      (hid₁.trans (hid.trans hid'.symm))
    have hnodup := h.keyed.store.artifacts c hc
    have hsame : ∀ old ∈ c.artifacts, old.id = row'.id → old = row := fun old hold holdId ↦
      Table.eq_of_key_eq hnodup hold hrow (holdId.trans (hrowId'.trans hrowId.symm))
    rcases hstep.stock.published_cases with
      hkept | ⟨assembly, days, haction, hrestaged, hlease, hbudget, hartifacts⟩
    · obtain ⟨old, hold, holdId, holdState⟩ := hkept row' hrow' hstate
      obtain rfl := hsame old hold holdId
      exact absurd holdState hnot
    · have hartifacts : c₁.artifacts = _ := hartifacts
      rw [hartifacts] at hrow'
      obtain ⟨old, hold, heq⟩ := Table.mem_update.1 hrow'
      by_cases hsel : old.isStagedIn assembly.claim.leaseGeneration = true
      · rw [if_pos hsel] at heq
        obtain rfl := hsame old hold (heq ▸ rfl)
        have hfresh := hfresh assembly haction (System.mem_case_restaged hrestaged) hbudget c hc
          hlease old hold hsel
        have hunclaimed := ((h.collected c hc).not_hasClaimed_iff hold
          (Clone.isPublishable_of_isPhaseLeasedBy hlease hsel)).2 hfresh
        rw [System.case_hasClaimed, hid, hrowId] at hunclaimed
        exact hunclaimed
      · rw [if_neg hsel] at heq
        obtain rfl := hsame old hold (congrArg SiteArtifact.id heq)
        exact absurd (heq ▸ hstate) hnot
  · rintro hsafe assembly rfl hrestaged hbudget c hc hlease row hrow hsel
    by_contra hstale
    have hclaimed : (sys.case c).HasClaimed row.id := by
      by_contra hnot
      exact hstale (((h.collected c hc).not_hasClaimed_iff hrow
        (Clone.isPublishable_of_isPhaseLeasedBy hlease hsel)).1 hnot)
    obtain ⟨s', messageId, hreturns, hmem⟩ :=
      exists_publishStaged h.keyed.store hc hlease hbudget
    have hstore : (sys.step env (.publishArtifacts assembly)).store = s' := by
      dsimp only [System.step]
      rw [if_pos hrestaged]
      exact congrArg Prod.snd (commit_ok_iff.2 hreturns)
    have hstaged : row.state = .staged := of_decide_eq_true (Bool.and_eq_true_iff.1 hsel).2
    have hpublished : row.publish sys.now assembly.claim.policy.archiveRetentionDays ∈
        (c.publish sys.now assembly.claim assembly.artifacts).artifacts :=
      Table.mem_update_of_sel hrow hsel
    rw [← hstore] at hmem
    refine hsafe c.job.id row.id ⟨c, hc, _, hmem, rfl, rfl, row, hrow, _, hpublished, rfl, rfl,
      ?_, rfl⟩ (System.case_hasClaimed.1 hclaimed)
    rw [hstaged]
    decide

/-- Every publication of the run that passes its checks is fresh. -/
def PublicationsFresh (env : Env) (actions : List Action) : Prop :=
  ∀ earlier action later, actions = earlier ++ action :: later →
    (System.after env earlier).PublishesFresh action

/-- Every step of the run collects safely. -/
def CollectionHolds (env : Env) (actions : List Action) : Prop :=
  ∀ earlier action later, actions = earlier ++ action :: later →
    (System.after env earlier).CollectsSafely env action

theorem System.downloadable_step (env : Env) (h : sys.Stocked)
    (hdownloadable : ∀ c ∈ sys.store.clones, (sys.case c).Downloadable)
    (hfresh : sys.PublishesFresh action) :
    ∀ c ∈ (sys.step env action).store.clones, ((sys.step env action).case c).Downloadable := by
  intro c' hc'
  rcases h.keyed.case_cases env action hc' with ⟨c, hc, -, hstep⟩ | ⟨hash, envelope, -, heq⟩
  · exact hstep.stock.downloadable (hdownloadable c hc) (h.collected c hc) (h.assembled c hc)
      fun assembly haction hrestaged hbudget hlease ↦
        hfresh assembly haction (System.mem_case_restaged hrestaged) hbudget c hc hlease
  · rw [heq]
    exact fun row hrow ↦ by cases hrow

theorem System.downloadable_after (env : Env) (actions : List Action)
    (hfresh : PublicationsFresh env actions) :
    ∀ c ∈ (System.after env actions).store.clones,
      ((System.after env actions).case c).Downloadable := by
  induction actions using List.reverseRecOn with
  | nil => exact fun c hc ↦ by cases hc
  | append_singleton actions action ih =>
    have hearlier : PublicationsFresh env actions := by
      rintro earlier next later rfl
      exact hfresh earlier next (later ++ [action]) (List.append_assoc _ _ _)
    have hafter : System.after env (actions ++ [action]) =
        (System.after env actions).step env action := run_concat _ _ _ _
    rw [hafter]
    exact System.downloadable_step env (System.stocked_after env actions) (ih hearlier)
      (hfresh actions action [] rfl)

/-- The collector and the publications of a run exclude one another, and its published artifacts can
be downloaded, exactly if every publication that passes its checks finds its artifacts to be deleted
a day after they were created. -/
theorem collection_iff (env : Env) (actions : List Action) :
    CollectionHolds env actions ↔ PublicationsFresh env actions := by
  constructor
  · intro hholds earlier action later heq
    exact ((System.stocked_after env earlier).publishesFresh_iff env).2
      (hholds earlier action later heq).publish
  · rintro hfresh earlier action later rfl
    have h := System.stocked_after env earlier
    have hstep := hfresh earlier action later rfl
    have hearlier : PublicationsFresh env earlier := by
      rintro first next rest rfl
      refine hfresh first next (rest ++ action :: later) ?_
      rw [List.append_assoc]
      rfl
    refine ⟨(h.publishesFresh_iff env).1 hstep, ?_, ?_⟩
    · rintro locks jobId artifactId object - hclaim c hc hid row hrow hrowId -
      exact h.claim hclaim hc hid hrow hrowId
    · rintro c hc row hrow hpublished -
      have hdownloadable := System.downloadable_step env h
        (System.downloadable_after env earlier hearlier) hstep c hc
      exact (List.mem_filter.1 (hdownloadable row hrow hpublished).2).1

/-! ### A publication that comes too late -/

/-- The texts of the commands are stored and not read again by the runs below. -/
def Env.sample : Env where
  stringifyCommand := fun _ ↦ ofText "\x7b\x7d"
  sha256 := Sha256.sum
  toUpperCase := fun c ↦ [c.toUpper]

/-- Limits of a clone of a single page. -/
def SiteClonePolicy.sample : SiteClonePolicy where
  maxPages := 10
  maxInputBytes := 1_000_000
  maxArchiveBytes := 1_000_000
  maxShardBytes := 1_048_576
  pageConcurrency := 1
  maxRetriesPerPage := 1
  maxDurationSeconds := 604_800
  archiveRetentionDays := 7
  metadataRetentionDays := 30

/-- A command for a clone of `https://example.com/`. -/
def SiteCloneRequestedEnvelope.sample : SiteCloneRequestedEnvelope where
  messageId := 301
  aggregateId := 302
  aggregateVersion := 1
  correlationId := 303
  payload := {
    siteCloneRequestId := 302, ownerId := 304, scanId := 305, rootUrl := "https://example.com/"
    policy := .sample }

/-- The claim of a phase of the sample job. -/
def ClaimedSitePhase.sample (generation : ℕ) : ClaimedSitePhase where
  id := 302
  ownerId := 304
  scanId := 305
  correlationId := 303
  rootUrl := "https://example.com/"
  policy := .sample
  leaseOwner := 307
  leaseGeneration := generation
  attemptCount := 1

/-- The only page of the sample job. -/
def SiteTargetInput.sample : SiteTargetInput where
  pageId := 306
  ordinal := 0
  publicUrl := "https://example.com/"
  urlSha256 := List.replicate 32 0
  localPath := "index.html"

/-- The claim of the page. -/
def ClaimedSitePage.sample : ClaimedSitePage where
  jobId := 302
  ownerId := 304
  scanId := 305
  correlationId := 303
  rootUrl := "https://example.com/"
  pageId := 306
  publicUrl := "https://example.com/"
  localPath := "index.html"
  leaseOwner := 307
  leaseGeneration := 1
  attemptCount := 1
  maxRetries := 1

/-- The archive that is built from the page. -/
def Assembly.sample : Assembly where
  claim := .sample 2
  parts := [{
    kind := .archiveShard, shardNumber := 1, logicalFilename := "site.zip", bucket := "weblens"
    bytes := 1, sha256 := List.replicate 32 0, contentType := "application/zip" }]

/-- The page is rendered, and the worker that assembles its archive needs more than a day: the
collector claims the staged archive before it is published. -/
def lateRun : List Action := [
  .acceptCommand (.requested .sample),
  .claimIngestion [] 307,
  .addTargets (.sample 1) [.sample],
  .finishIngestion (.sample 1),
  .claimPage {} 307,
  .completePage .sample "weblens" 1 (List.replicate 32 0) 1,
  .claimAssembly {} 307,
  .stageArtifacts .sample,
  .copyArtifact .sample (.artifact 304 302 2 "site.zip"),
  .verifyArtifacts .sample,
  .tick day,
  .extendPhaseLease (.sample 2),
  .claimObjectForDeletion {},
  .restageArtifacts .sample]

/-- The late publication publishes an artifact that the collector has claimed. -/
theorem late_publication_publishes_claimed :
    ¬ CollectionHolds .sample (lateRun ++ [.publishArtifacts .sample]) := by
  intro h
  have hfresh := ((System.stocked_after .sample lateRun).publishesFresh_iff .sample).2
    (h lateRun _ [] rfl).publish
  obtain ⟨c, hc, hlease, row, hrow, hsel, hne⟩ :
      ∃ c ∈ (System.after .sample lateRun).store.clones,
        c.isPhaseLeasedBy (System.after .sample lateRun).now .assembling (.sample 2) = true ∧
        ∃ row ∈ c.artifacts, row.isStagedIn 2 = true ∧ row.deleteAfter ≠ row.createdAt + day := by
    decide +kernel
  exact hne (hfresh .sample rfl (by decide +kernel) (by decide) c hc hlease row hrow hsel)

end WebLens.SiteClone
