import WebLens.SiteClone.Machine

/-!
# Artifacts, assemblies and deletions of a case

A row of an artifact belongs to the one assembly of its generation. While that generation holds the
lease, the collector's claims can be read off a staged row: one that was never claimed is to be
deleted a day after it was created, and one that was claimed later than that.
-/

set_option autoImplicit false
set_option relaxedAutoImplicit false

namespace WebLens.SiteClone

open Lib Lib.Utf8 Lib.Transaction
open Capture (Uuid Instant Duration minute second day)

variable {env : Env} {action : Action} {now : Instant} {c c' : Case}

/-! ### What a step does to the stock -/

/-- The phase is leased as before, or not at all. -/
structure Clone.KeepsLease (d d' : Clone) : Prop where
  generation : d'.job.phaseLeaseGeneration = d.job.phaseLeaseGeneration
  owner : d'.job.phaseLeaseOwner = d.job.phaseLeaseOwner ∨ d'.job.phaseLeaseOwner = none

theorem Clone.KeepsLease.refl (d : Clone) : d.KeepsLease d :=
  ⟨rfl, .inl rfl⟩

theorem Clone.KeepsLease.trans {d d' d'' : Clone} (h : d.KeepsLease d') (h' : d'.KeepsLease d'') :
    d.KeepsLease d'' where
  generation := h'.generation.trans h.generation
  owner := by
    rcases h'.owner with heq | hnone
    · rw [heq]
      exact h.owner
    · exact .inr hnone

/-- What a step can do to the artifacts, the assemblies and the deletions of a case. -/
inductive StockStep (now : Instant) (action : Action) : Case → Case → Prop
  | kept {c : Case} {d : Clone} {objects : List StorageKey} {pages : List ClaimedSitePage}
      (hartifacts : d.artifacts = c.clone.artifacts) (hlease : c.clone.KeepsLease d)
      (hobjects : ∀ key ∈ c.objects, key ∈ objects) :
      StockStep now action c { c with clone := d, objects := objects, pages := pages }
  | leased {c : Case} {d : Clone} {claim : ClaimedSitePhase}
      (hartifacts : d.artifacts = c.clone.artifacts)
      (hgeneration : d.job.phaseLeaseGeneration = c.clone.job.phaseLeaseGeneration + 1)
      (hclaim : claim.leaseGeneration = c.clone.job.phaseLeaseGeneration + 1) :
      StockStep now action c { c with clone := d, phases := claim :: c.phases }
  | staged {c : Case} {d : Clone} {assembly : Assembly} (hclaim : assembly.claim ∈ c.phases)
      (honly : ∀ other ∈ c.staged, other.claim = assembly.claim → other = assembly)
      (h : Stages now assembly c.clone d) :
      StockStep now action c { c with clone := d, staged := assembly :: c.staged }
  | verified {c : Case} {assembly : Assembly} (hstaged : assembly ∈ c.staged)
      (hkeys : ∀ key ∈ assembly.keys, key ∈ c.objects) :
      StockStep now action c { c with verified := assembly :: c.verified }
  | restaged {c : Case} {d : Clone} {assembly : Assembly} (hverified : assembly ∈ c.verified)
      (h : Stages now assembly c.clone d) :
      StockStep now action c { c with clone := d, restaged := assembly :: c.restaged }
  | published {c : Case} {d : Clone} {assembly : Assembly} (retentionDays : ℕ)
      (haction : action = .publishArtifacts assembly) (hrestaged : assembly ∈ c.restaged)
      (hlease : c.clone.isPhaseLeasedBy now .assembling assembly.claim = true)
      (hbudget : totalBytes assembly.artifacts ≤ assembly.claim.policy.maxArchiveBytes)
      (hartifacts : d.artifacts = Table.update
        (SiteArtifact.isStagedIn assembly.claim.leaseGeneration)
        (SiteArtifact.publish now retentionDays) c.clone.artifacts)
      (hgeneration : d.job.phaseLeaseGeneration = c.clone.job.phaseLeaseGeneration)
      (howner : d.job.phaseLeaseOwner = none) : StockStep now action c (c.set d)
  | abandoned {c : Case} {d : Clone} (generation : ℕ)
      (hartifacts : d.artifacts = Table.update (SiteArtifact.isStagedIn generation)
        (SiteArtifact.abandon now) c.clone.artifacts)
      (hgeneration : d.job.phaseLeaseGeneration = c.clone.job.phaseLeaseGeneration)
      (howner : d.job.phaseLeaseOwner = none) : StockStep now action c (c.set d)
  | artifactClaimed {c : Case} {row : SiteArtifact} (hrow : row ∈ c.clone.artifacts)
      (hdue : row.isDue now = true) : StockStep now action c { c with
        clone := c.clone.updateArtifacts (fun other ↦ decide (other.id = row.id))
          (SiteArtifact.claim now)
        deletions := .artifact c.clone.job.id row.id row.object :: c.deletions }
  | bundleClaimed {c : Case} {d : Clone} {page : SitePage} {object : StoredObject}
      (hartifacts : d.artifacts = c.clone.artifacts) (hlease : c.clone.KeepsLease d)
      (hpage : page ∈ c.clone.pages) (hobject : page.bundle = some object) :
      StockStep now action c { c with
        clone := d
        deletions := .pageBundle c.clone.job.id page.pageId object :: c.deletions }
  | objectDeleted {c : Case} {deletion : ClaimedSiteObjectDeletion}
      (hheld : deletion ∈ c.deletions) : StockStep now action c { c with
        objects := c.objects.filter fun key ↦ decide (key ≠ deletion.object.key) }
  | artifactDeleted {c : Case} {d : Clone} {artifactId : Uuid}
      (hartifacts : d.artifacts = Table.update (SiteArtifact.isDeletable artifactId)
        (fun row ↦ { row with state := .deleted }) c.clone.artifacts)
      (hlease : c.clone.KeepsLease d) : StockStep now action c (c.set d)
  | artifactPostponed {c : Case} {artifactId : Uuid} {object : StoredObject}
      (hheld : .artifact c.clone.job.id artifactId object ∈ c.deletions) :
      StockStep now action c (c.set (c.clone.updateArtifacts (SiteArtifact.isDeletable artifactId)
        fun row ↦ { row with deleteAfter := now + minute }))

/-- A step that changes the clone only, and neither its artifacts nor, but for a release, its
lease. -/
theorem StockStep.of_clone (now : Instant) (c : Case) {d : Clone}
    (hartifacts : d.artifacts = c.clone.artifacts) (hlease : c.clone.KeepsLease d) :
    StockStep now action c (c.set d) :=
  .kept hartifacts hlease fun _ h ↦ h

theorem StockStep.incrementJob (now : Instant) (c : Case) {d : Clone}
    (hartifacts : d.artifacts = c.clone.artifacts) (hlease : c.clone.KeepsLease d)
    (messageId : Uuid) (succeeded : Bool) (inputBytes : ℕ) :
    StockStep now action c (c.set (d.incrementJob now messageId succeeded inputBytes)) := by
  unfold Clone.incrementJob
  dsimp only
  split_ifs
  · exact .of_clone now c hartifacts (hlease.trans ⟨rfl, .inl rfl⟩)
  · exact .of_clone now c hartifacts (hlease.trans ⟨rfl, .inl rfl⟩)

theorem Clone.keepsLease_failPage (now : Instant) (d : Clone) (messageId : Uuid) (claim : ClaimedSitePage)
    (code : String) : (d.failPage now messageId claim code).artifacts = d.artifacts ∧
      d.KeepsLease (d.failPage now messageId claim code) := by
  unfold Clone.failPage Clone.incrementJob
  dsimp only
  split_ifs <;> exact ⟨rfl, rfl, .inl rfl⟩

theorem Clone.keepsLease_finishIngestion (now : Instant) (d : Clone) :
    (d.finishIngestion now).artifacts = d.artifacts ∧ d.KeepsLease (d.finishIngestion now) := by
  unfold Clone.finishIngestion
  split_ifs <;> exact ⟨rfl, rfl, .inr rfl⟩

theorem Clone.keepsLease_startReconcile (now : Instant) (d : Clone) :
    (d.startReconcile now).artifacts = d.artifacts ∧ d.KeepsLease (d.startReconcile now) := by
  have hcancelled : (if d.isOverdue now then d.exceedDeadline now else d).artifacts =
      d.artifacts ∧ d.KeepsLease (if d.isOverdue now then d.exceedDeadline now else d) := by
    split_ifs
    · exact ⟨rfl, rfl, .inr rfl⟩
    · exact ⟨rfl, .refl d⟩
  unfold Clone.startReconcile
  generalize (if d.isOverdue now then d.exceedDeadline now else d) = cancelled at hcancelled ⊢
  dsimp only
  split_ifs
  · exact ⟨hcancelled.1, hcancelled.2.trans ⟨rfl, .inl rfl⟩⟩
  · exact hcancelled

theorem Clone.keepsLease_finishReconcile (now : Instant) (d : Clone) (messageId : Uuid) :
    (d.finishReconcile now messageId).artifacts = d.artifacts ∧
      d.KeepsLease (d.finishReconcile now messageId) := by
  unfold Clone.finishReconcile
  dsimp only
  split_ifs <;> exact ⟨rfl, rfl, .inr rfl⟩

theorem Clone.abandonPhase_stock (now : Instant) (d : Clone) (messageId : Uuid) (claim : ClaimedSitePhase)
    (code : String) : (d.abandonPhase now messageId claim code).artifacts =
        Table.update (SiteArtifact.isStagedIn claim.leaseGeneration) (SiteArtifact.abandon now)
          d.artifacts ∧
      (d.abandonPhase now messageId claim code).job.phaseLeaseGeneration =
        d.job.phaseLeaseGeneration ∧
      (d.abandonPhase now messageId claim code).job.phaseLeaseOwner = none := by
  unfold Clone.abandonPhase Clone.retryPhase
  dsimp only
  split_ifs <;> exact ⟨rfl, rfl, rfl⟩

theorem Clone.finishDeletion_stock (now : Instant) (d : Clone) (messageId artifactId : Uuid) :
    (d.finishDeletion now messageId artifactId).artifacts =
        Table.update (SiteArtifact.isDeletable artifactId)
          (fun row ↦ { row with state := .deleted }) d.artifacts ∧
      d.KeepsLease (d.finishDeletion now messageId artifactId) := by
  unfold Clone.finishDeletion
  dsimp only
  split_ifs <;> exact ⟨rfl, rfl, .inl rfl⟩

theorem CaseStep.stock (h : CaseStep env now action c c') : StockStep now action c c' := by
  cases h with
  | same | phaseExtended | targetsAdded | pagesReclaimed | pageExtended | pageCancelled
  | bundleDeleted | bundlePostponed | emptyFailed => exact .of_clone now _ rfl ⟨rfl, .inl rfl⟩
  | cancelled => exact .of_clone now _ rfl ⟨rfl, .inr rfl⟩
  | ingestionClaimed => exact .leased rfl rfl rfl
  | assemblyClaimed => exact .leased rfl rfl rfl
  | ingestionFinished =>
    have hfinished := Clone.keepsLease_finishIngestion now c.clone
    exact .of_clone now _ hfinished.1 (hfinished.2.trans ⟨rfl, .inl rfl⟩)
  | @pageClaimed _ workerId _ d page hd hpage hclaimable =>
    have hkept : (d.claimPage now workerId page.pageId).artifacts = c.clone.artifacts ∧
        c.clone.KeepsLease (d.claimPage now workerId page.pageId) := by
      rcases hd with rfl | ⟨keys, rfl⟩ <;> exact ⟨rfl, rfl, .inl rfl⟩
    exact .kept hkept.1 hkept.2 fun _ h ↦ h
  | bundlePut hclaim => exact .kept rfl (.refl _) fun _ h ↦ List.mem_cons_of_mem _ h
  | copied hstaged hkey => exact .kept rfl (.refl _) fun _ h ↦ List.mem_cons_of_mem _ h
  | pageOverBudget messageId | pageCompleted messageId =>
    refine StockStep.incrementJob now c ?_ ?_ messageId _ _
    · rfl
    · exact ⟨rfl, .inl rfl⟩
  | pageFailed messageId =>
    exact .of_clone now _ (Clone.keepsLease_failPage now c.clone messageId _ _).1
      (Clone.keepsLease_failPage now c.clone messageId _ _).2
  | staged hclaim honly h => exact .staged hclaim honly h
  | verified hstaged hkeys => exact .verified hstaged hkeys
  | restaged hverified h => exact .restaged hverified h
  | published messageId hrestaged hlease hbudget =>
    exact .published _ rfl hrestaged hlease hbudget rfl rfl rfl
  | ingestionRetried messageId | assemblyRetried messageId =>
    exact .abandoned _ (Clone.abandonPhase_stock now c.clone messageId _ _).1
      (Clone.abandonPhase_stock now c.clone messageId _ _).2.1
      (Clone.abandonPhase_stock now c.clone messageId _ _).2.2
  | reconcileStarted =>
    have hstarted := Clone.keepsLease_startReconcile now c.clone
    exact .of_clone now _ hstarted.1 hstarted.2
  | reconciled messageId =>
    have hstarted := Clone.keepsLease_startReconcile now c.clone
    have hfinished := Clone.keepsLease_finishReconcile now (c.clone.startReconcile now)
      messageId
    exact .of_clone now _ (hfinished.1.trans hstarted.1) (hstarted.2.trans hfinished.2)
  | artifactClaimed hrow hdue => exact .artifactClaimed hrow hdue
  | bundleClaimed hpage hdue hobject => exact .bundleClaimed rfl ⟨rfl, .inl rfl⟩ hpage hobject
  | objectDeleted hheld => exact .objectDeleted hheld
  | artifactDeleted messageId hheld hrow =>
    exact .artifactDeleted (Clone.finishDeletion_stock now c.clone messageId _).1
      (Clone.finishDeletion_stock now c.clone messageId _).2
  | artifactPostponed hheld => exact .artifactPostponed hheld

/-! ### Assemblies -/

/-- Whether the key is that of the bundle of a page. -/
def StorageKey.isBundle : StorageKey → Bool
  | .pageBundle _ _ _ _ => true
  | .artifact _ _ _ _ => false

/-- The claims of a case have distinct generations, a claim has one assembly, and every artifact is
of the assembly of its generation. -/
structure Case.Assembled (c : Case) : Prop where
  generation_le : ∀ claim ∈ c.phases,
    claim.leaseGeneration ≤ c.clone.job.phaseLeaseGeneration
  distinct : (c.phases.map ClaimedSitePhase.leaseGeneration).Nodup
  staged : ∀ assembly ∈ c.staged, assembly.claim ∈ c.phases
  unique : ∀ assembly ∈ c.staged, ∀ other ∈ c.staged,
    assembly.claim = other.claim → assembly = other
  verified : ∀ assembly ∈ c.verified, assembly ∈ c.staged
  restaged : ∀ assembly ∈ c.restaged, assembly ∈ c.verified
  rows : ∀ row ∈ c.clone.artifacts, ∃ assembly ∈ c.staged,
    row.generation = assembly.claim.leaseGeneration ∧ row.object.key ∈ assembly.keys
  keys : (c.clone.artifacts.map fun row ↦ row.object.key).Nodup

theorem Case.Assembled.new {hash : ByteString} {envelope : SiteCloneRequestedEnvelope} :
    (Case.new now hash envelope).Assembled := by
  constructor <;> simp [Case.new]

/-- Assemblies of the same generation are the same. -/
theorem Case.Assembled.eq_of_generation (hc : c.Assembled) {assembly other : Assembly}
    (hassembly : assembly ∈ c.staged) (hother : other ∈ c.staged)
    (h : assembly.claim.leaseGeneration = other.claim.leaseGeneration) : assembly = other :=
  hc.unique assembly hassembly other hother
    (Table.eq_of_key_eq hc.distinct (hc.staged assembly hassembly) (hc.staged other hother) h)

/-- The rows keep their generations and their objects. -/
def Clone.SameRows (d d' : Clone) : Prop :=
  (d'.artifacts.map fun row ↦ (row.generation, row.object)) =
    d.artifacts.map fun row ↦ (row.generation, row.object)

theorem Clone.SameRows.of_update {d d' : Clone} {sel : SiteArtifact → Bool}
    {set : SiteArtifact → SiteArtifact} (h : d'.artifacts = Table.update sel set d.artifacts)
    (hgeneration : ∀ row, (set row).generation = row.generation)
    (hobject : ∀ row, (set row).object = row.object) : d.SameRows d' := by
  unfold Clone.SameRows
  rw [h]
  exact Table.map_update _ fun row _ _ ↦ Prod.ext (hgeneration row) (hobject row)

theorem Clone.SameRows.rows {d d' : Clone} {staged : List Assembly} (h : d.SameRows d')
    (hrows : ∀ row ∈ d.artifacts, ∃ assembly ∈ staged,
      row.generation = assembly.claim.leaseGeneration ∧ row.object.key ∈ assembly.keys) :
    ∀ row ∈ d'.artifacts, ∃ assembly ∈ staged,
      row.generation = assembly.claim.leaseGeneration ∧ row.object.key ∈ assembly.keys := by
  intro row' hrow'
  have hmem : (row'.generation, row'.object) ∈
      d.artifacts.map fun row ↦ (row.generation, row.object) :=
    h ▸ List.mem_map_of_mem hrow'
  obtain ⟨row, hrow, heq⟩ := List.mem_map.1 hmem
  obtain ⟨hgeneration, hobject⟩ := Prod.mk.inj heq
  rw [← hgeneration, ← hobject]
  exact hrows row hrow

theorem Clone.SameRows.keys {d d' : Clone} (h : d.SameRows d') :
    (d'.artifacts.map fun row ↦ row.object.key) = d.artifacts.map fun row ↦ row.object.key := by
  have hkeys : ∀ e : Clone, (e.artifacts.map fun row ↦ row.object.key) =
      (e.artifacts.map fun row ↦ (row.generation, row.object)).map fun entry ↦ entry.2.key := by
    intro e
    rw [List.map_map]
    rfl
  rw [hkeys, hkeys, h]

/-- A clone with the same rows and the same generation. -/
theorem Case.Assembled.same (hc : c.Assembled) {d : Clone} (hrows : c.clone.SameRows d)
    (hgeneration : d.job.phaseLeaseGeneration = c.clone.job.phaseLeaseGeneration) :
    (c.set d).Assembled :=
  { hc with
    generation_le := by
      intro claim hclaim
      change _ ≤ d.job.phaseLeaseGeneration
      rw [hgeneration]
      exact hc.generation_le claim hclaim
    rows := hrows.rows hc.rows
    keys := by
      change (d.artifacts.map fun row ↦ row.object.key).Nodup
      rw [hrows.keys]
      exact hc.keys }

/-- The rows that staging leaves. -/
theorem Case.Assembled.stages (hc : c.Assembled) {d : Clone} {assembly : Assembly}
    (h : Stages now assembly c.clone d) {staged : List Assembly}
    (hsub : ∀ other ∈ c.staged, other ∈ staged) (hmem : assembly ∈ staged) :
    d.job.phaseLeaseGeneration = c.clone.job.phaseLeaseGeneration ∧
    (∀ row ∈ d.artifacts, ∃ other ∈ staged,
      row.generation = other.claim.leaseGeneration ∧ row.object.key ∈ other.keys) ∧
    (d.artifacts.map fun row ↦ row.object.key).Nodup := by
  obtain ⟨added, rfl, hadded, hnodup, hdisjoint⟩ := h.rows
  refine ⟨rfl, fun row hrow ↦ ?_, ?_⟩
  · rcases List.mem_append.1 hrow with hrow | hrow
    · obtain ⟨other, hother, hrow⟩ := hc.rows row hrow
      exact ⟨other, hsub other hother, hrow⟩
    · refine ⟨assembly, hmem, (hadded row hrow).generation, ?_⟩
      obtain ⟨part, hpart, hobject⟩ := (hadded row hrow).part
      rw [hobject]
      unfold Assembly.keys Assembly.artifacts
      rw [List.map_map]
      exact List.mem_map_of_mem hpart
  · dsimp only
    rw [List.map_append, List.nodup_append]
    refine ⟨hc.keys, hnodup, ?_⟩
    intro key hkey other hother
    obtain ⟨row, hrow, rfl⟩ := List.mem_map.1 hkey
    obtain ⟨new, hnew, rfl⟩ := List.mem_map.1 hother
    exact hdisjoint row hrow new hnew

theorem StockStep.assembled (h : StockStep now action c c') (hc : c.Assembled) : c'.Assembled := by
  cases h with
  | kept hartifacts hlease hobjects =>
    exact { hc.same (congrArg _ hartifacts) hlease.generation with }
  | @leased d claim hartifacts hgeneration hclaim =>
    have hnew : ∀ other ∈ c.phases, other.leaseGeneration < claim.leaseGeneration := by
      intro other hother
      rw [hclaim]
      exact Nat.lt_succ_of_le (hc.generation_le other hother)
    exact { hc with
      generation_le := by
        intro other hother
        change _ ≤ d.job.phaseLeaseGeneration
        rw [hgeneration, ← hclaim]
        rcases List.mem_cons.1 hother with rfl | hother
        · exact le_refl _
        · exact (hnew other hother).le
      distinct := by
        rw [List.map_cons, List.nodup_cons]
        refine ⟨fun hmem ↦ ?_, hc.distinct⟩
        obtain ⟨other, hother, heq⟩ := List.mem_map.1 hmem
        exact (hnew other hother).ne heq
      staged := fun assembly h ↦ List.mem_cons_of_mem _ (hc.staged assembly h)
      rows := by
        change ∀ row ∈ d.artifacts, _
        rw [hartifacts]
        exact hc.rows
      keys := by
        change (d.artifacts.map _).Nodup
        rw [hartifacts]
        exact hc.keys }
  | @staged d assembly hclaim honly h =>
    obtain ⟨hgeneration, hrows, hkeys⟩ := hc.stages h (fun _ h ↦ List.mem_cons_of_mem assembly h)
      List.mem_cons_self
    exact { hc with
      generation_le := by
        change ∀ claim ∈ c.phases, _ ≤ d.job.phaseLeaseGeneration
        rw [hgeneration]
        exact hc.generation_le
      staged := fun other hother ↦ by
        rcases List.mem_cons.1 hother with rfl | hother
        · exact hclaim
        · exact hc.staged other hother
      unique := fun first hfirst second hsecond heq ↦ by
        rcases List.mem_cons.1 hfirst with hnew | hold
        · rcases List.mem_cons.1 hsecond with hnew' | hold'
          · rw [hnew, hnew']
          · rw [hnew, honly second hold' (heq ▸ congrArg Assembly.claim hnew)]
        · rcases List.mem_cons.1 hsecond with hnew' | hold'
          · rw [hnew', honly first hold (heq.trans (congrArg Assembly.claim hnew'))]
          · exact hc.unique first hold second hold' heq
      verified := fun other h ↦ List.mem_cons_of_mem _ (hc.verified other h)
      rows := hrows
      keys := hkeys }
  | verified hstaged hkeys =>
    exact { hc with
      verified := fun other hother ↦ by
        rcases List.mem_cons.1 hother with rfl | hother
        · exact hstaged
        · exact hc.verified other hother
      restaged := fun other h ↦ List.mem_cons_of_mem _ (hc.restaged other h) }
  | @restaged d assembly hverified h =>
    obtain ⟨hgeneration, hrows, hkeys⟩ := hc.stages h (fun _ h ↦ h)
      (hc.verified assembly hverified)
    exact { hc with
      generation_le := by
        change ∀ claim ∈ c.phases, _ ≤ d.job.phaseLeaseGeneration
        rw [hgeneration]
        exact hc.generation_le
      restaged := fun other hother ↦ by
        rcases List.mem_cons.1 hother with rfl | hother
        · exact hverified
        · exact hc.restaged other hother
      rows := hrows
      keys := hkeys }
  | published retentionDays haction hrestaged hlease hbudget hartifacts hgeneration howner =>
    exact hc.same (.of_update hartifacts (fun _ ↦ rfl) fun _ ↦ rfl) hgeneration
  | abandoned generation hartifacts hgeneration howner =>
    exact hc.same (.of_update hartifacts (fun _ ↦ rfl) fun _ ↦ rfl) hgeneration
  | @artifactClaimed row hrow hdue =>
    have hrows : c.clone.SameRows (c.clone.updateArtifacts
        (fun other ↦ decide (other.id = row.id)) (SiteArtifact.claim now)) :=
      .of_update rfl (fun _ ↦ rfl) fun _ ↦ rfl
    exact { hc.same hrows rfl with }
  | bundleClaimed hartifacts hlease hpage hobject =>
    exact { hc.same (congrArg _ hartifacts) hlease.generation with }
  | objectDeleted hheld => exact { hc with }
  | artifactDeleted hartifacts hlease =>
    exact hc.same (.of_update hartifacts (fun _ ↦ rfl) fun _ ↦ rfl) hlease.generation
  | artifactPostponed hheld =>
    exact hc.same (.of_update rfl (fun _ ↦ rfl) fun _ ↦ rfl) rfl

end WebLens.SiteClone
