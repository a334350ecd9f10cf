import WebLens.ControlPlane.Commands

/-!
# Site clones that wait for their scan

No end of a scan is lost: while a site clone waits, its scan has not ended, unless it had ended
before the clone was created. A clone that was queued has been dispatched by exactly one command.
-/

set_option autoImplicit false
set_option relaxedAutoImplicit false

namespace WebLens.ControlPlane

open Lib Lib.Table Lib.Transaction
open Capture (Uuid)
open Crawler (Instant)

variable {env : WorkflowEnv} {consuming delivering : Prop} {s s' : WorkflowTables}

/-! ### One site clone for a scan -/

/-- No two site clones have one scan, and no two of an owner have one key. -/
structure Sourced (s : WorkflowTables) : Prop where
  scans : (s.siteClones.map fun clone ↦ clone.scanId).Nodup
  keys : (s.siteClones.map fun clone ↦ (clone.ownerId, clone.idempotencyKeyHash)).Nodup

theorem map_replace_of_same {β : Type} {column : SiteCloneRow → β} {clones : List SiteCloneRow}
    (hnodup : (clones.map fun clone ↦ clone.id).Nodup) {clone next : SiteCloneRow}
    (hclone : clone ∈ clones) (hid : next.id = clone.id) (hcolumn : column next = column clone) :
    (Table.replace (fun clone ↦ clone.id) next clones).map column = clones.map column := by
  refine map_update column fun row hrow hsel ↦ ?_
  obtain rfl := eq_of_key_eq hnodup hrow hclone ((of_decide_eq_true hsel).trans hid)
  exact hcolumn

theorem Sourced.write (hwrite : Write env consuming delivering s s') (hnumbered : Numbered s)
    (h : Sourced s) : Sourced s' := by
  obtain heq | ⟨clone, -, -, -, -, hscan, hkey, heq, -⟩ | ⟨clone, hclone, next, hmove, heq⟩ :=
    hwrite.siteClones_cases
  · exact ⟨heq ▸ h.scans, heq ▸ h.keys⟩
  · refine ⟨heq ▸ nodup_map_concat h.scans hscan, heq ▸ nodup_map_concat h.keys ?_⟩
    intro other hother hsame
    obtain ⟨howner, hhash⟩ := Prod.mk.inj hsame
    exact hkey other hother howner hhash
  · have hsame := hmove.advances.1.same
    constructor
    · rw [heq, map_replace_of_same hnumbered.siteClones.1 hclone hsame.id hsame.scanId]
      exact h.scans
    · rw [heq, map_replace_of_same hnumbered.siteClones.1 hclone hsame.id
        (by rw [hsame.ownerId, hsame.idempotencyKeyHash])]
      exact h.keys

/-! ### The end of a scan -/

/-- A site clone that waits has a scan that has not ended. -/
def Attended (id : Uuid) (s : WorkflowTables) : Prop :=
  ∀ clone ∈ s.siteClones, clone.id = id → clone.status = .waitingForScan →
    ∃ scan ∈ s.scans, scan.id = clone.scanId ∧ scan.status.isTerminal = false

/-- A site clone still waits after a projection only if the scan that ended is not its own. -/
theorem Coordinated.waiting {scan : Scan} (h : Coordinated env scan s s') (hsourced : Sourced s)
    {clone : SiteCloneRow} (hclone : clone ∈ s'.siteClones)
    (hwaiting : clone.status = .waitingForScan) :
    clone ∈ s.siteClones ∧ (scan.status.isTerminal = true → clone.scanId ≠ scan.id) := by
  have hmoved : ∀ found next : SiteCloneRow, s.siteCloneOf scan.id = some found →
      next.id = found.id → next.status ≠ .waitingForScan →
      clone ∈ Table.replace (fun clone ↦ clone.id) next s.siteClones →
      clone ∈ s.siteClones ∧ (scan.status.isTerminal = true → clone.scanId ≠ scan.id) := by
    intro found next hfound hid hstatus hmem
    obtain ⟨hfoundMem, hfoundScan⟩ := siteCloneOf_mem hfound
    rcases mem_replace hmem with rfl | ⟨hmem, hne⟩
    · exact absurd hwaiting hstatus
    · refine ⟨hmem, fun _ hscan ↦ hne ?_⟩
      rw [eq_of_key_eq hsourced.scans hmem hfoundMem (hscan.trans hfoundScan.symm)]
      exact hid.symm
  cases h with
  | untouched hidle =>
    refine ⟨hclone, fun hterminal hscan ↦ hidle hterminal clone ?_ hwaiting⟩
    have hfind := find?_key hsourced.scans hclone
    rw [hscan] at hfind
    exact hfind
  | dispatched now correlationId found hfound =>
    exact hmoved found { found with status := .queued, version := found.version + 1 } hfound rfl
      SiteCloneStatus.noConfusion hclone
  | failed found next hfound hactive hstatus hnext =>
    obtain ⟨-, hfailed, hsame, -⟩ := SiteCloneRow.failFromScan_some hnext
    have hne : next.status ≠ .waitingForScan := by
      rw [hfailed]
      exact SiteCloneStatus.noConfusion
    exact hmoved found { next with version := next.version + 1 } hfound hsame.id hne hclone

/-- A scan that does not end keeps its clone attended. -/
theorem attended_of_replace {scans : List Scan} {scan : Scan} (hscan : scan ∈ scans) (next : Scan)
    (hid : scan.id = next.id) {scanId : Uuid}
    (hnext : scanId = next.id → next.status.isTerminal = false)
    (h : ∃ scan ∈ scans, scan.id = scanId ∧ scan.status.isTerminal = false) :
    ∃ scan ∈ Table.replace Scan.id next scans, scan.id = scanId ∧
      scan.status.isTerminal = false := by
  obtain ⟨found, hfound, hfoundId, hactive⟩ := h
  by_cases hsame : found.id = next.id
  · exact ⟨next, mem_replace_self hscan hid, hsame.symm.trans hfoundId,
      hnext (hfoundId.symm.trans hsame)⟩
  · exact ⟨found, mem_replace_of_ne hfound hsame, hfoundId, hactive⟩

theorem Attended.write {id : Uuid} (hwrite : Write env consuming delivering s s')
    (hsourced : Sourced s) (hlt : id < s.nextUuid) (h : Attended id s) : Attended id s' := by
  cases hwrite with
  | scanAdded now website keyHash correlationId =>
    intro clone hclone hid hwaiting
    obtain ⟨scan, hscan, hscanId, hactive⟩ := h clone hclone hid hwaiting
    exact ⟨scan, List.mem_append_left _ hscan, hscanId, hactive⟩
  | scanCancelling now correlationId scan hscan hstatus =>
    exact fun clone hclone hid hwaiting ↦ attended_of_replace hscan
      { scan with status := .cancelRequested, version := scan.version + 1 } rfl (fun _ ↦ rfl)
      (h clone hclone hid hwaiting)
  | cloneAdded clone scan hcloneId =>
    intro other hother hid hwaiting
    rcases List.mem_append.1 hother with hother | hother
    · exact h other hother hid hwaiting
    · rw [List.mem_singleton.1 hother, hcloneId] at hid
      exact absurd hlt (hid ▸ Nat.lt_irrefl _)
  | cloneCancelled clone hclone hstatus =>
    intro other hother hid hwaiting
    rcases mem_replace hother with rfl | ⟨hother, -⟩
    · cases hwaiting
    · exact h other hother hid hwaiting
  | cloneCancelling now correlationId clone next hclone hstatus hnext =>
    obtain ⟨-, -, hcancelled, -⟩ := SiteCloneRow.requestCancellation_some hnext
    intro other hother hid hwaiting
    rcases mem_replace hother with rfl | ⟨hother, -⟩
    · rcases hcancelled with hcancelled | hcancelled <;>
        exact absurd (hcancelled.symm.trans hwaiting) SiteCloneStatus.noConfusion
    · exact h other hother hid hwaiting
  | cloneProjected envelope clone next hnew hclone hid hnext =>
    intro other hother hotherId hwaiting
    rcases mem_replace hother with rfl | ⟨hother, -⟩
    · exact absurd hwaiting (CloneMove.projected envelope next hnext).advances.2.2
    · exact h other hother hotherId hwaiting
  | scanProjected envelope scan next projection s₁ hvalid hnew hscan hscanId howner hprojection
      hnext hcoordinated =>
    have hsame := (ScanMove.projected projection next (Scan.projectionOf_some hprojection).limit
      hnext).advances.1
    intro clone hclone hid hwaiting
    obtain ⟨hmem, hended⟩ := hcoordinated.waiting (s := s.saveScan next)
      ⟨hsourced.scans, hsourced.keys⟩ hclone hwaiting
    obtain ⟨found, hfound, hrest⟩ := attended_of_replace hscan
      { next with version := next.version + 1 } hsame.id.symm
      (fun hsource ↦ Bool.eq_false_iff.2 fun hterminal ↦ hended hterminal hsource)
      (h clone hmem hid hwaiting)
    refine ⟨found, ?_, hrest⟩
    exact hcoordinated.scans ▸ hfound
  | websiteAdded => exact h
  | websiteArchived => exact h
  | ignored => exact h
  | outboxMoved => exact h

theorem Write.nextUuid_le (h : Write env consuming delivering s s') : s.nextUuid ≤ s'.nextUuid := by
  cases h with
  | scanAdded => exact Nat.le_add_right _ 2
  | scanProjected envelope scan next projection s₁ hvalid hnew hscan hid howner hprojection hnext
      hcoordinated =>
    cases hcoordinated with
    | untouched => exact le_rfl
    | dispatched => exact Nat.le_succ _
    | failed => exact le_rfl
  | websiteAdded => exact Nat.le_succ _
  | scanCancelling => exact Nat.le_succ _
  | cloneAdded => exact Nat.le_succ _
  | cloneCancelling => exact Nat.le_succ _
  | websiteArchived => exact le_rfl
  | cloneCancelled => exact le_rfl
  | ignored => exact le_rfl
  | cloneProjected => exact le_rfl
  | outboxMoved => exact le_rfl

theorem sourced_after (env : WorkflowEnv) (actions : List WorkflowAction) :
    Sourced (WorkflowTables.after env actions) :=
  (after_invariant (P := fun s ↦ Numbered s ∧ Sourced s)
    ⟨numbered_empty, List.nodup_nil, List.nodup_nil⟩
    (fun hwrite h ↦ ⟨h.1.write hwrite, h.2.write hwrite h.1⟩) actions).2

theorem attended_run {id : Uuid} (hnumbered : Numbered s) (hsourced : Sourced s)
    (hlt : id < s.nextUuid) (h : Attended id s) (actions : List WorkflowAction) :
    Attended id (run (WorkflowTables.step env) s actions) := by
  have hstep : ∀ (s : WorkflowTables) (action : WorkflowAction),
      (Numbered s ∧ Sourced s ∧ id < s.nextUuid ∧ Attended id s) →
      Numbered (s.step env action) ∧ Sourced (s.step env action) ∧
        id < (s.step env action).nextUuid ∧ Attended id (s.step env action) := by
    refine fun s action h ↦ (step_writes s action).invariant (P := fun s ↦
      Numbered s ∧ Sourced s ∧ id < s.nextUuid ∧ Attended id s) ?_ h
    rintro s s' hwrite ⟨hnumbered, hsourced, hlt, h⟩
    exact ⟨hnumbered.write hwrite, hsourced.write hwrite hnumbered,
      hlt.trans_le hwrite.nextUuid_le, h.write hwrite hsourced hlt⟩
  exact (run_invariant hstep ⟨hnumbered, hsourced, hlt, h⟩ actions).2.2.2

/-! ### Created site clones -/

/-- The raw key under which the scan of a site clone is requested. -/
def siteCloneScanKey (env : WorkflowEnv) (keyHash : String) : Option String :=
  env.keyHash (some ("site-clone-scan:" ++ keyHash))

/-- A new site clone waits for a scan that has its key: one that was just admitted, or one that was
there. -/
theorem createSiteClone_new {userActive : Bool} {now : Instant} {ownerId correlationId : Uuid}
    {url : String} {rawKey : Option String} {id : Uuid}
    (h : Returns (createSiteClone env userActive now ownerId url rawKey correlationId) s
      (id, false) s') :
    ∃ clone ∈ s'.siteClones, clone.id = id ∧ clone.status = .waitingForScan ∧
      clone.ownerId = ownerId ∧ ∃ scan ∈ s'.scans, scan.id = clone.scanId ∧
        scan.idempotencyKeyHash = siteCloneScanKey env clone.idempotencyKeyHash ∧
        (scan.status = .queued ∨ scan ∈ s.scans) := by
  simp only [createSiteClone, returns_bind, returns_require, returns_found, returns_get] at h
  obtain ⟨_, _, ⟨-, rfl⟩, target, _, ⟨-, rfl⟩, hashed, _, hhash, keyHash, _, ⟨hkey, rfl⟩, _, s,
    ⟨rfl, rfl⟩, h⟩ := h
  obtain ⟨-, rfl⟩ := hashOptional_returns hhash
  cases hfind : s.siteClones.find? fun clone ↦ decide (clone.ownerId = ownerId) &&
      decide (clone.idempotencyKeyHash = keyHash) with
  | some existing =>
    simp only [hfind, returns_bind, returns_require, returns_pure, Prod.mk.injEq] at h
    obtain ⟨_, _, ⟨-, rfl⟩, ⟨-, hreplayed⟩, -⟩ := h
    cases hreplayed
  | none =>
    simp only [hfind, returns_bind, returns_require, returns_drawUuid, returns_get, returns_modify,
      returns_pure, Prod.mk.injEq] at h
    obtain ⟨website, s₁, hwebsite, scan, s₂, hscan, _, _, ⟨rfl, rfl⟩, _, _, ⟨rfl, rfl⟩, _, _,
      ⟨hcheck, rfl⟩, _, _, rfl, ⟨rfl, -⟩, rfl⟩ := h
    refine ⟨_, List.mem_append_right _ (List.mem_singleton_self _), rfl, rfl, rfl, ?_⟩
    have hscans : s₁.scans = s.scans := (resolveOrCreate_writes hwebsite).2.2
    obtain ⟨hash, existing, hhash, hexisting, -, rfl, rfl⟩ |
      ⟨website, -, -, -, -, rfl, rfl⟩ := createScan_cases hscan
    · obtain ⟨hmem, -, hkeyHash⟩ := mem_of_findByKey hexisting
      exact ⟨existing, hmem, rfl, hkeyHash.trans hhash.symm, .inr (hscans ▸ hmem)⟩
    · exact ⟨_, List.mem_append_right _ (List.mem_singleton_self _), rfl, rfl, .inl rfl⟩

/-- Whatever happens in between, a site clone that waited for a scan which had not ended still does
so later, or it does not wait any longer; and a site clone starts to wait for a scan with its key,
which was just admitted unless the user had requested it under that key before. -/
theorem scanEnd_not_lost (env : WorkflowEnv) (earlier later : List WorkflowAction) :
    (∀ clone ∈ (WorkflowTables.after env earlier).siteClones,
        Attended clone.id (WorkflowTables.after env earlier) →
        Attended clone.id (WorkflowTables.after env (earlier ++ later))) ∧
      ∀ userActive now ownerId url rawKey correlationId id s',
        Returns (createSiteClone env userActive now ownerId url rawKey correlationId)
          (WorkflowTables.after env earlier) (id, false) s' →
        ∃ clone ∈ s'.siteClones, clone.id = id ∧ clone.status = .waitingForScan ∧
          clone.ownerId = ownerId ∧ ∃ scan ∈ s'.scans, scan.id = clone.scanId ∧
            scan.idempotencyKeyHash = siteCloneScanKey env clone.idempotencyKeyHash ∧
            (scan.status = .queued ∨ scan ∈ (WorkflowTables.after env earlier).scans) := by
  refine ⟨fun clone hclone h ↦ ?_, fun _ _ _ _ _ _ _ _ h ↦ createSiteClone_new h⟩
  have hnumbered := numbered_after env earlier
  unfold WorkflowTables.after at h hclone hnumbered ⊢
  rw [run_append]
  exact attended_run hnumbered (sourced_after env earlier) (hnumbered.siteClones.lt hclone) h later

/-! ### One command for a queued site clone -/

/-- What the command that starts a site clone asks for. -/
def startOf (id : Uuid) : String × String × Uuid :=
  ("SITE_CLONE", "SITE_CLONE_REQUESTED", id)

/-- What the command that cancels a site clone asks for. -/
def stopOf (id : Uuid) : String × String × Uuid :=
  ("SITE_CLONE", "SITE_CLONE_CANCEL_REQUESTED", id)

/-- A queued site clone has been dispatched. -/
def Dispatched (s : WorkflowTables) : Prop :=
  ∀ clone ∈ s.siteClones, clone.status = .queued →
    ∃ command ∈ s.commands, command.subject = startOf clone.id

theorem Write.commands_subset (h : Write env consuming delivering s s') :
    s.commands ⊆ s'.commands := by
  have happend : ∀ (rows : List OutboxRow) row, rows.map OutboxRow.command ⊆
      (rows ++ [row]).map OutboxRow.command := by
    intro rows row
    rw [List.map_append]
    exact List.subset_append_left _ _
  cases h with
  | scanAdded => exact happend _ _
  | scanCancelling => exact happend _ _
  | cloneCancelling => exact happend _ _
  | scanProjected envelope scan next projection s₁ hvalid hnew hscan hid howner hprojection hnext
      hcoordinated =>
    cases hcoordinated with
    | untouched => exact List.Subset.refl _
    | dispatched => exact happend _ _
    | failed => exact List.Subset.refl _
  | outboxMoved hdelivering sel set hmove =>
    unfold WorkflowTables.commands
    rw [map_update OutboxRow.command fun row _ _ ↦ hmove.command row]
    exact List.Subset.refl _
  | websiteAdded => exact List.Subset.refl _
  | websiteArchived => exact List.Subset.refl _
  | cloneAdded => exact List.Subset.refl _
  | cloneCancelled => exact List.Subset.refl _
  | ignored => exact List.Subset.refl _
  | cloneProjected => exact List.Subset.refl _

/-- A site clone is queued only when the coordinator dispatches it. -/
theorem Coordinated.queued {scan : Scan} (h : Coordinated env scan s s') {clone : SiteCloneRow}
    (hclone : clone ∈ s'.siteClones) (hqueued : clone.status = .queued) :
    clone ∈ s.siteClones ∨ ∃ command ∈ s'.commands, command.subject = startOf clone.id := by
  cases h with
  | untouched => exact .inl hclone
  | dispatched now correlationId found =>
    rcases mem_replace hclone with rfl | ⟨hmem, -⟩
    · right
      rw [commands_withCommand]
      exact ⟨_, List.mem_append_right _ (List.mem_singleton_self _), rfl⟩
    · exact .inl hmem
  | failed found next hfound hactive hstatus hnext =>
    obtain ⟨-, hfailed, -⟩ := SiteCloneRow.failFromScan_some hnext
    rcases mem_replace hclone with rfl | ⟨hmem, -⟩
    · exact absurd (hfailed.symm.trans hqueued) SiteCloneStatus.noConfusion
    · exact .inl hmem

theorem Dispatched.write (hwrite : Write env consuming delivering s s') (h : Dispatched s) :
    Dispatched s' := by
  have hkept : ∀ clone ∈ s.siteClones, clone.status = .queued →
      ∃ command ∈ s'.commands, command.subject = startOf clone.id := by
    intro clone hclone hqueued
    obtain ⟨command, hcommand, hsubject⟩ := h clone hclone hqueued
    exact ⟨command, hwrite.commands_subset hcommand, hsubject⟩
  have hreplaced : ∀ (clone next : SiteCloneRow), clone ∈ s.siteClones → CloneMove clone next →
      clone.status ≠ .waitingForScan →
      ∀ other ∈ Table.replace (fun clone ↦ clone.id) next s.siteClones, other.status = .queued →
        ∃ command ∈ s'.commands, command.subject = startOf other.id := by
    intro clone next hclone hmove hstatus other hother hqueued
    rcases mem_replace hother with rfl | ⟨hother, -⟩
    · have hadvances := hmove.advances.1
      rw [hadvances.same.id]
      exact hkept clone hclone ((hadvances.queued hqueued).resolve_left hstatus)
    · exact hkept other hother hqueued
  cases hwrite with
  | cloneAdded clone scan hid hfresh =>
    intro other hother hqueued
    rcases List.mem_append.1 hother with hother | hother
    · exact h other hother hqueued
    · rw [List.mem_singleton.1 hother, hfresh.1] at hqueued
      cases hqueued
  | cloneCancelled clone hclone hstatus =>
    intro other hother hqueued
    rcases mem_replace hother with rfl | ⟨hother, -⟩
    · cases hqueued
    · exact h other hother hqueued
  | cloneCancelling now correlationId clone next hclone hstatus hnext =>
    exact hreplaced clone _ hclone (.cancelling next hstatus hnext) hstatus
  | cloneProjected envelope clone next hnew hclone hid hnext =>
    intro other hother hqueued
    rcases mem_replace hother with rfl | ⟨hother, -⟩
    · obtain ⟨-, -, status, hvalue, -, hproject⟩ := SiteCloneRequest.applyRemote_some hnext
      have hstatus : next.status = .queued := hqueued
      rw [hproject] at hstatus
      exact absurd hstatus (valueOf_jobStatusText hvalue).2
    · exact h other hother hqueued
  | scanProjected envelope scan next projection s₁ hvalid hnew hscan hid howner hprojection hnext
      hcoordinated =>
    intro clone hclone hqueued
    rcases hcoordinated.queued (s := s.saveScan next) hclone hqueued with hmem | hcommand
    · exact hkept clone hmem hqueued
    · exact hcommand
  | outboxMoved hdelivering sel set hmove => exact hkept
  | scanAdded => exact hkept
  | scanCancelling => exact hkept
  | websiteAdded => exact h
  | websiteArchived => exact h
  | ignored => exact h

/-- In every state that transactions reach: a waiting site clone has not been dispatched, a queued
one was dispatched by exactly one command, and no site clone is ever dispatched or cancelled by two.
A dispatched clone has a scan that ended other than by cancellation, and the clone asks for no more
pages than the scan and the configuration allow. -/
theorem siteClones_dispatched (env : WorkflowEnv) (actions : List WorkflowAction) (id : Uuid) :
    (WorkflowTables.after env actions).commands.countP
        (fun command ↦ decide (command.subject = startOf id)) ≤ 1 ∧
      (WorkflowTables.after env actions).commands.countP
        (fun command ↦ decide (command.subject = stopOf id)) ≤ 1 ∧
      (∀ clone ∈ (WorkflowTables.after env actions).siteClones, clone.id = id →
        (clone.status = .waitingForScan → (WorkflowTables.after env actions).commands.countP
          (fun command ↦ decide (command.subject = startOf id)) = 0) ∧
        (clone.status = .queued → (WorkflowTables.after env actions).commands.countP
          (fun command ↦ decide (command.subject = startOf id)) = 1)) ∧
      ∀ e, .siteClone (.requested e) ∈ (WorkflowTables.after env actions).commands →
        ∃ clone ∈ (WorkflowTables.after env actions).siteClones,
          ∃ scan ∈ (WorkflowTables.after env actions).scans, CloneRequestedBy env clone scan e := by
  have hsound := sound_after env actions
  have hdispatched : Dispatched (WorkflowTables.after env actions) :=
    after_invariant (fun _ h ↦ absurd h List.not_mem_nil) Dispatched.write actions
  have hone : ∀ subject, (WorkflowTables.after env actions).commands.countP
      (fun command ↦ decide (command.subject = subject)) ≤ 1 := by
    intro subject
    have hcount := List.nodup_iff_count_le_one.1 hsound.commanded.unique subject
    rw [List.count, List.countP_map] at hcount
    refine le_trans (List.countP_mono_left fun command _ heq ↦ ?_) hcount
    rw [Function.comp_apply, of_decide_eq_true heq]
    exact beq_self_eq_true subject
  refine ⟨hone _, hone _, fun clone hclone hid ↦ ⟨fun hwaiting ↦ ?_, fun hqueued ↦ ?_⟩,
    fun e he ↦ hsound.commanded.justified _ he⟩
  · rw [List.countP_eq_zero]
    intro command hcommand hsubject
    refine first_cloneRequested hsound.commanded hsound.numbered hclone hwaiting command hcommand ?_
    rw [hid]
    exact of_decide_eq_true hsubject
  · obtain ⟨command, hcommand, hsubject⟩ := hdispatched clone hclone hqueued
    refine le_antisymm (hone _) (List.countP_pos_iff.2 ⟨command, hcommand, ?_⟩)
    rw [← hid]
    exact decide_eq_true hsubject

end WebLens.ControlPlane
