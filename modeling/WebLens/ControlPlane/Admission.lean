import WebLens.ControlPlane.Writes

/-!
# Admission of scans

What bounds the scans of a user holds in every state that transactions reach: at most three are
active, at most one for each website, at most one was admitted under a key, and the website of an
active scan is active itself.
-/

set_option autoImplicit false
set_option relaxedAutoImplicit false

namespace WebLens.ControlPlane

open Lib Lib.Table Lib.Transaction
open Capture (Uuid)
open Crawler (Instant)

variable {env : WorkflowEnv} {consuming delivering : Prop} {s s' : WorkflowTables}

/-! ### Rows of scans -/

/-- What a write makes of a scan. -/
inductive ScanMove (scan : Scan) : Scan → Prop
  | cancelling (hstatus : scan.status = .queued ∨ scan.status = .running) :
      ScanMove scan { scan with status := .cancelRequested, version := scan.version + 1 }
  | projected (projection : RemoteScanProjection) (next : Scan)
      (hlimit : projection.progress.limit = scan.maxPages)
      (hnext : scan.applyRemoteProjection projection = .ok (some next)) :
      ScanMove scan { next with version := next.version + 1 }

/-- The columns that no write changes. -/
structure Scan.Same (scan next : Scan) : Prop where
  id : next.id = scan.id
  websiteId : next.websiteId = scan.websiteId
  requestedByUserId : next.requestedByUserId = scan.requestedByUserId
  maxPages : next.maxPages = scan.maxPages
  maxDepth : next.maxDepth = scan.maxDepth
  maxResponseBytes : next.maxResponseBytes = scan.maxResponseBytes
  maxDurationSeconds : next.maxDurationSeconds = scan.maxDurationSeconds
  maxRedirects : next.maxRedirects = scan.maxRedirects
  concurrency : next.concurrency = scan.concurrency
  collectorVersion : next.collectorVersion = scan.collectorVersion
  idempotencyKeyHash : next.idempotencyKeyHash = scan.idempotencyKeyHash
  requestFingerprintHash : next.requestFingerprintHash = scan.requestFingerprintHash

theorem Scan.Same.refl (scan : Scan) : scan.Same scan :=
  ⟨rfl, rfl, rfl, rfl, rfl, rfl, rfl, rfl, rfl, rfl, rfl, rfl⟩

theorem leads_cancelRequested {status : ScanStatus} (h : status = .queued ∨ status = .running) :
    status.Leads .cancelRequested := by
  rcases h with rfl | rfl
  · exact .inr (by decide)
  · exact .inr (by decide)

/-- A scan that moves was not terminal, keeps its columns and follows a transition. -/
theorem ScanMove.advances {scan next : Scan} (h : ScanMove scan next) :
    scan.Same next ∧ scan.status.isTerminal = false ∧ scan.status.Leads next.status ∧
      scan.remoteExecutionVersion ≤ next.remoteExecutionVersion ∧
      next.version = scan.version + 1 := by
  cases h with
  | cancelling hstatus =>
    refine ⟨⟨rfl, rfl, rfl, rfl, rfl, rfl, rfl, rfl, rfl, rfl, rfl, rfl⟩, ?_, ?_, le_rfl, rfl⟩
    · rcases hstatus with hstatus | hstatus <;> rw [hstatus] <;> rfl
    · exact leads_cancelRequested hstatus
  | projected projection next hlimit hnext =>
    obtain ⟨hversion, hactive, ⟨-, rfl⟩ | ⟨-, hleads, -, hnext⟩⟩ :=
      Scan.applyRemoteProjection_some hnext
    · exact ⟨⟨rfl, rfl, rfl, rfl, rfl, rfl, rfl, rfl, rfl, rfl, rfl, rfl⟩, hactive, .inl rfl,
        hversion.le, rfl⟩
    · refine ⟨?_, hactive, hleads, ?_, ?_⟩
      · rw [hnext]
        exact ⟨rfl, rfl, rfl, rfl, rfl, rfl, rfl, rfl, rfl, rfl, rfl, rfl⟩
      · rw [hnext]
        exact hversion.le
      · rw [hnext]
        rfl

theorem Coordinated.scans {scan : Scan} (h : Coordinated env scan s s') : s'.scans = s.scans := by
  cases h <;> rfl

theorem Coordinated.websites {scan : Scan} (h : Coordinated env scan s s') :
    s'.websites = s.websites := by
  cases h <;> rfl

/-- What a write makes of the scans. -/
theorem Write.scans_cases (h : Write env consuming delivering s s') :
    s'.scans = s.scans ∨
      (∃ website ∈ s.websites, ∃ keyHash, website.status = .active ∧
        (∀ key ∈ keyHash, findByKey website.ownerId key s.scans = none) ∧
        s.scans.any (Scan.isActiveFor website.id website.ownerId) = false ∧
        s.scans.countP (fun scan ↦ decide (scan.requestedByUserId = website.ownerId) &&
          scan.status.isActive) < maxActiveScansPerUser ∧
        s'.scans = s.scans ++ [s.nextScan env website keyHash]) ∨
      ∃ scan ∈ s.scans, ∃ next, ScanMove scan next ∧
        s'.scans = Table.replace Scan.id next s.scans := by
  cases h with
  | scanAdded now website keyHash correlationId hwebsite hstatus hkey hidle hquota =>
    exact .inr (.inl ⟨website, hwebsite, keyHash, hstatus, hkey, hidle, hquota, rfl⟩)
  | scanCancelling now correlationId scan hscan hstatus =>
    exact .inr (.inr ⟨scan, hscan, _, .cancelling hstatus, rfl⟩)
  | scanProjected envelope scan next projection s₁ hvalid hnew hscan hid howner hprojection hnext
      hcoordinated =>
    refine .inr (.inr ⟨scan, hscan, _,
      .projected projection next (Scan.projectionOf_some hprojection).limit hnext, ?_⟩)
    exact hcoordinated.scans
  | websiteAdded => exact .inl rfl
  | websiteArchived => exact .inl rfl
  | cloneAdded => exact .inl rfl
  | cloneCancelled => exact .inl rfl
  | cloneCancelling => exact .inl rfl
  | ignored => exact .inl rfl
  | cloneProjected => exact .inl rfl
  | outboxMoved => exact .inl rfl

/-! ### Identifiers -/

/-- Every identifier was drawn, and none twice for one table. -/
structure Numbered (s : WorkflowTables) : Prop where
  websites : Serial Website.id s.nextUuid s.websites
  scans : Serial Scan.id s.nextUuid s.scans
  siteClones : Serial (fun clone : SiteCloneRow ↦ clone.id) s.nextUuid s.siteClones
  outbox : Serial OutboxRow.messageId s.nextUuid s.outbox

theorem numbered_empty : Numbered {} :=
  ⟨.nil, .nil, .nil, .nil⟩

theorem Numbered.withCommand (h : Numbered s) (now : Instant) {command : Uuid → Command}
    (hcommand : ∀ messageId, (command messageId).messageId = messageId) :
    Numbered (s.withCommand now command) where
  websites := h.websites.mono (Nat.le_succ _)
  scans := h.scans.mono (Nat.le_succ _)
  siteClones := h.siteClones.mono (Nat.le_succ _)
  outbox := by
    have hid : (outboxRow now (command s.nextUuid)).messageId = s.nextUuid := hcommand _
    exact h.outbox.concat hid.ge (Nat.lt_succ_of_le hid.le)

theorem Numbered.saveScan (h : Numbered s) (scan : Scan) : Numbered (s.saveScan scan) where
  websites := h.websites
  scans := h.scans.of_map_eq map_replace_key
  siteClones := h.siteClones
  outbox := h.outbox

theorem Numbered.saveSiteClone (h : Numbered s) (clone : SiteCloneRow) :
    Numbered (s.saveSiteClone clone) where
  websites := h.websites
  scans := h.scans
  siteClones := h.siteClones.of_map_eq map_replace_key
  outbox := h.outbox

theorem Numbered.withInbox (h : Numbered s) (messageId : Uuid) (hash : Utf8.ByteString) :
    Numbered (s.withInbox messageId hash) :=
  ⟨h.websites, h.scans, h.siteClones, h.outbox⟩

theorem Numbered.coordinated {scan : Scan} (h : Numbered s) (hwrite : Coordinated env scan s s') :
    Numbered s' := by
  cases hwrite with
  | untouched => exact h
  | dispatched now correlationId clone =>
    exact (h.saveSiteClone _).withCommand now fun _ ↦ rfl
  | failed clone next => exact h.saveSiteClone next

theorem Numbered.write (hwrite : Write env consuming delivering s s') (h : Numbered s) :
    Numbered s' := by
  cases hwrite with
  | websiteAdded website hid =>
    exact ⟨h.websites.concat hid.ge (Nat.lt_succ_of_le hid.le), h.scans.mono (Nat.le_succ _),
      h.siteClones.mono (Nat.le_succ _), h.outbox.mono (Nat.le_succ _)⟩
  | websiteArchived website =>
    exact ⟨h.websites.of_map_eq (map_update Website.id fun _ _ _ ↦ rfl), h.scans, h.siteClones,
      h.outbox⟩
  | scanAdded now website keyHash correlationId =>
    exact ⟨h.websites.mono (Nat.le_add_right _ 2), h.scans.concat le_rfl (Nat.lt_add_of_pos_right
      Nat.two_pos), h.siteClones.mono (Nat.le_add_right _ 2),
      h.outbox.concat (Nat.le_succ _) (Nat.lt_succ_self _)⟩
  | scanCancelling now correlationId scan =>
    exact (h.saveScan _).withCommand now fun _ ↦ rfl
  | cloneAdded clone scan hid =>
    exact ⟨h.websites.mono (Nat.le_succ _), h.scans.mono (Nat.le_succ _),
      h.siteClones.concat hid.ge (Nat.lt_succ_of_le hid.le), h.outbox.mono (Nat.le_succ _)⟩
  | cloneCancelled clone => exact h.saveSiteClone _
  | cloneCancelling now correlationId clone next =>
    exact (h.saveSiteClone next).withCommand now fun _ ↦ rfl
  | ignored messageId hash => exact h.withInbox messageId hash
  | scanProjected envelope scan next projection s₁ hvalid hnew hscan hid howner hprojection hnext
      hcoordinated => exact ((h.saveScan next).coordinated hcoordinated).withInbox _ _
  | cloneProjected envelope clone next => exact (h.saveSiteClone _).withInbox _ _
  | outboxMoved hdelivering sel set hmove =>
    exact ⟨h.websites, h.scans, h.siteClones, h.outbox.of_map_eq (map_update _ fun row _ _ ↦
      congrArg Command.messageId (hmove.command row))⟩

theorem numbered_after (env : WorkflowEnv) (actions : List WorkflowAction) :
    Numbered (WorkflowTables.after env actions) :=
  after_invariant numbered_empty Numbered.write actions

/-! ### Admission -/

/-- The scans of a user that are active. -/
def activeScans (userId : Uuid) (scans : List Scan) : ℕ :=
  scans.countP fun scan ↦ decide (scan.requestedByUserId = userId) && scan.status.isActive

/-- `uq_scans_user_idempotency_key`. -/
def Scan.keyIndex (scan : Scan) : Option (Uuid × String) :=
  scan.idempotencyKeyHash.map fun key ↦ (scan.requestedByUserId, key)

/-- `uq_scans_one_active_per_website`. -/
def Scan.activeIndex (scan : Scan) : Option (Uuid × Uuid) :=
  if scan.status.isActive then some (scan.requestedByUserId, scan.websiteId) else none

/-- `uq_websites_owner_active_url`. -/
def Website.activeIndex (website : Website) : Option (Uuid × String) :=
  if website.status = .active then some (website.ownerId, website.canonicalUrl) else none

/-- The website of a scan is one of its user, and active as long as the scan is. -/
def Scan.OnWebsite (websites : List Website) (scan : Scan) : Prop :=
  ∃ website ∈ websites, website.id = scan.websiteId ∧ website.ownerId = scan.requestedByUserId ∧
    (scan.status.isActive = true → website.status = .active)

/-- What bounds the scans of every user. -/
structure Admitted (s : WorkflowTables) : Prop where
  quota : ∀ userId, activeScans userId s.scans ≤ maxActiveScansPerUser
  perWebsite : UniqueWhere Scan.id Scan.activeIndex s.scans
  perKey : UniqueWhere Scan.id Scan.keyIndex s.scans
  perUrl : UniqueWhere Website.id Website.activeIndex s.websites
  onWebsite : ∀ scan ∈ s.scans, scan.OnWebsite s.websites

theorem ScanMove.isActive {scan next : Scan} (h : ScanMove scan next) :
    scan.status.isActive = true := by
  rw [ScanStatus.isActive_eq, h.advances.2.1]
  rfl

theorem ScanMove.keyIndex {scan next : Scan} (h : ScanMove scan next) :
    next.keyIndex = scan.keyIndex := by
  have hsame := h.advances.1
  rw [Scan.keyIndex, Scan.keyIndex, hsame.idempotencyKeyHash, hsame.requestedByUserId]

theorem ScanMove.activeIndex {scan next : Scan} (h : ScanMove scan next) :
    next.activeIndex = none ∨ next.activeIndex = scan.activeIndex := by
  have hsame := h.advances.1
  unfold Scan.activeIndex
  rw [if_pos h.isActive, hsame.requestedByUserId, hsame.websiteId]
  split_ifs
  · exact .inr rfl
  · exact .inl rfl

theorem activeIndex_of_idle {websiteId userId : Uuid} {scans : List Scan}
    (h : scans.any (Scan.isActiveFor websiteId userId) = false) {scan : Scan}
    (hmem : scan ∈ scans) : scan.activeIndex ≠ some (userId, websiteId) := by
  intro hindex
  unfold Scan.activeIndex at hindex
  split_ifs at hindex with hactive
  have heq := Prod.mk.inj (Option.some.inj hindex)
  refine absurd (List.any_eq_true.2 ⟨scan, hmem, ?_⟩) (Bool.eq_false_iff.1 h)
  simp only [Scan.isActiveFor, heq.1, heq.2, decide_true, Bool.true_and, hactive]

theorem keyIndex_of_findByKey {userId : Uuid} {key : String} {scans : List Scan}
    (h : findByKey userId key scans = none) {scan : Scan} (hmem : scan ∈ scans) :
    scan.keyIndex ≠ some (userId, key) := by
  intro hindex
  obtain ⟨hash, hhash, heq⟩ := Option.map_eq_some_iff.1 hindex
  obtain ⟨huser, rfl⟩ := Prod.mk.inj heq
  have hnone := List.find?_eq_none.1 h scan hmem
  simp only [huser, hhash, decide_true, Bool.and_self, not_true_eq_false] at hnone

theorem Admitted.scans (h : Admitted s) (hnumbered : Numbered s)
    (hwrite : Write env consuming delivering s s') :
    (∀ userId, activeScans userId s'.scans ≤ maxActiveScansPerUser) ∧
      UniqueWhere Scan.id Scan.activeIndex s'.scans ∧
      UniqueWhere Scan.id Scan.keyIndex s'.scans := by
  obtain heq | ⟨website, -, keyHash, -, hkey, hidle, hquota, heq⟩ | ⟨scan, hscan, next, hmove, heq⟩
    := hwrite.scans_cases
  · rw [heq]
    exact ⟨h.quota, h.perWebsite, h.perKey⟩
  · rw [heq]
    refine ⟨fun userId ↦ ?_, h.perWebsite.concat ?_, h.perKey.concat ?_⟩
    · unfold activeScans
      rw [List.countP_append, List.countP_singleton]
      by_cases howner : website.ownerId = userId
      · rw [howner] at hquota
        split_ifs
        · exact hquota
        · exact h.quota userId
      · rw [if_neg]
        · exact h.quota userId
        · simp only [WorkflowTables.nextScan, newScan, howner, decide_false, Bool.false_and,
            Bool.false_eq_true, not_false_eq_true]
    · intro value hvalue other hother
      rw [← hvalue]
      exact activeIndex_of_idle hidle hother
    · intro value hvalue other hother
      obtain ⟨key, hhash, rfl⟩ := Option.map_eq_some_iff.1 hvalue
      exact keyIndex_of_findByKey (hkey key hhash) hother
  · rw [heq]
    have hid := hmove.advances.1.id.symm
    refine ⟨fun userId ↦ le_trans (countP_replace_le hnumbered.scans.1 hscan hid ?_)
      (h.quota userId), h.perWebsite.replace hnumbered.scans.1 hscan hid hmove.activeIndex,
      h.perKey.replace hnumbered.scans.1 hscan hid (.inr hmove.keyIndex)⟩
    rw [hmove.advances.1.requestedByUserId, hmove.isActive, Bool.and_true]
    exact fun h ↦ (Bool.and_eq_true_iff.1 h).1

/-- What a write makes of the websites. -/
theorem Write.websites_cases (h : Write env consuming delivering s s') :
    s'.websites = s.websites ∨
      (∃ website, website.id = s.nextUuid ∧ website.status = .active ∧
        findActiveWebsite website.ownerId website.canonicalUrl s.websites = none ∧
        s'.websites = s.websites ++ [website] ∧ s'.scans = s.scans) ∨
      ∃ website ∈ s.websites,
        s.scans.any (Scan.isActiveFor website.id website.ownerId) = false ∧
        s'.websites = Table.update (fun other ↦ decide (other.id = website.id))
          (fun other ↦ { other with status := .archived, version := other.version + 1 })
          s.websites ∧ s'.scans = s.scans := by
  cases h with
  | websiteAdded website hid hstatus hnew =>
    exact .inr (.inl ⟨website, hid, hstatus, hnew, rfl, rfl⟩)
  | websiteArchived website hwebsite hidle =>
    exact .inr (.inr ⟨website, hwebsite, hidle, rfl, rfl⟩)
  | scanProjected envelope scan next projection s₁ hvalid hnew hscan hid howner hprojection hnext
      hcoordinated => exact .inl hcoordinated.websites
  | scanAdded => exact .inl rfl
  | scanCancelling => exact .inl rfl
  | cloneAdded => exact .inl rfl
  | cloneCancelled => exact .inl rfl
  | cloneCancelling => exact .inl rfl
  | ignored => exact .inl rfl
  | cloneProjected => exact .inl rfl
  | outboxMoved => exact .inl rfl

theorem Admitted.perUrl_write (h : Admitted s) (hwrite : Write env consuming delivering s s') :
    UniqueWhere Website.id Website.activeIndex s'.websites := by
  obtain heq | ⟨website, -, hstatus, hnew, heq, -⟩ | ⟨website, -, -, heq, -⟩ :=
    hwrite.websites_cases
  · rw [heq]
    exact h.perUrl
  · rw [heq]
    refine h.perUrl.concat fun value hvalue other hother hindex ↦ ?_
    unfold Website.activeIndex at hvalue hindex
    rw [if_pos hstatus] at hvalue
    split_ifs at hindex with hactive
    obtain ⟨howner, hurl⟩ := Prod.mk.inj (Option.some.inj (hindex.trans hvalue.symm))
    have hnone := List.find?_eq_none.1 hnew other hother
    simp only [howner, hurl, hactive, decide_true, Bool.and_self, not_true_eq_false] at hnone
  · rw [heq]
    exact h.perUrl.update fun _ _ _ ↦ ⟨rfl, .inl (if_neg WebsiteStatus.noConfusion)⟩

/-- The scans stay on their websites, since a website with an active scan is not archived. -/
theorem Admitted.onWebsite_write (h : Admitted s) (hnumbered : Numbered s)
    (hwrite : Write env consuming delivering s s') :
    ∀ scan ∈ s'.scans, scan.OnWebsite s'.websites := by
  obtain heq | ⟨website, -, -, -, heq, hscans⟩ | ⟨website, hwebsite, hidle, heq, hscans⟩ :=
    hwrite.websites_cases
  · rw [heq]
    obtain hscans | ⟨website, hwebsite, keyHash, hstatus, -, -, -, hscans⟩ |
      ⟨scan, hscan, next, hmove, hscans⟩ := hwrite.scans_cases
    · rw [hscans]
      exact h.onWebsite
    · rw [hscans]
      intro scan hscan
      rcases List.mem_append.1 hscan with hscan | hscan
      · exact h.onWebsite scan hscan
      · rw [List.mem_singleton.1 hscan]
        exact ⟨website, hwebsite, rfl, rfl, fun _ ↦ hstatus⟩
    · rw [hscans]
      intro other hother
      rcases mem_replace hother with rfl | ⟨hother, -⟩
      · obtain ⟨website, hmem, hid, howner, hactive⟩ := h.onWebsite scan hscan
        have hsame := hmove.advances.1
        exact ⟨website, hmem, hid.trans hsame.websiteId.symm,
          howner.trans hsame.requestedByUserId.symm, fun _ ↦ hactive hmove.isActive⟩
      · exact h.onWebsite other hother
  · rw [heq, hscans]
    intro scan hscan
    obtain ⟨owned, hmem, howned⟩ := h.onWebsite scan hscan
    exact ⟨owned, List.mem_append_left _ hmem, howned⟩
  · rw [heq, hscans]
    intro scan hscan
    obtain ⟨owned, hmem, hid, howner, hactive⟩ := h.onWebsite scan hscan
    by_cases hsame : owned.id = website.id
    · obtain rfl := eq_of_key_eq hnumbered.websites.1 hmem hwebsite hsame
      refine ⟨_, mem_update_of_sel hmem (decide_eq_true rfl), hid, howner, fun hrunning ↦ ?_⟩
      refine absurd (List.any_eq_true.2 ⟨scan, hscan, ?_⟩) (Bool.eq_false_iff.1 hidle)
      simp only [Scan.isActiveFor, hid, howner, hrunning, decide_true, Bool.and_self]
    · exact ⟨owned, mem_update_of_not hmem (decide_eq_false hsame), hid, howner, hactive⟩

theorem Admitted.write (hwrite : Write env consuming delivering s s') (hnumbered : Numbered s)
    (h : Admitted s) : Admitted s' := by
  obtain ⟨hquota, hperWebsite, hperKey⟩ := h.scans hnumbered hwrite
  exact ⟨hquota, hperWebsite, hperKey, h.perUrl_write hwrite, h.onWebsite_write hnumbered hwrite⟩

theorem admitted_empty : Admitted {} :=
  ⟨fun _ ↦ Nat.zero_le _, .nil, .nil, .nil, fun _ h ↦ absurd h List.not_mem_nil⟩

theorem admitted_after (env : WorkflowEnv) (actions : List WorkflowAction) :
    Admitted (WorkflowTables.after env actions) :=
  (after_invariant (P := fun s ↦ Numbered s ∧ Admitted s) ⟨numbered_empty, admitted_empty⟩
    (fun hwrite h ↦ ⟨h.1.write hwrite, h.2.write hwrite h.1⟩) actions).2

/-- Whatever users, the crawler and the workers do in any order: a user has at most three active
scans, at most one of a website and at most one under a key, and at most one active website with an
URL; and the website of an active scan has not been archived. -/
theorem scans_bounded (env : WorkflowEnv) (actions : List WorkflowAction) (userId : Uuid) :
    activeScans userId (WorkflowTables.after env actions).scans ≤ 3 ∧
      (∀ websiteId, (WorkflowTables.after env actions).scans.countP
        (Scan.isActiveFor websiteId userId) ≤ 1) ∧
      (∀ key, (WorkflowTables.after env actions).scans.countP (fun scan ↦
        decide (scan.requestedByUserId = userId) &&
          decide (scan.idempotencyKeyHash = some key)) ≤ 1) ∧
      (∀ url, (WorkflowTables.after env actions).websites.countP (fun website ↦
        decide (website.ownerId = userId) && decide (website.canonicalUrl = url) &&
          decide (website.status = .active)) ≤ 1) ∧
      ∀ scan ∈ (WorkflowTables.after env actions).scans, scan.status.isActive = true →
        ∃ website ∈ (WorkflowTables.after env actions).websites, website.id = scan.websiteId ∧
          website.ownerId = scan.requestedByUserId ∧ website.status = .active := by
  have hnumbered := numbered_after env actions
  have h := admitted_after env actions
  refine ⟨h.quota userId, fun websiteId ↦ ?_, fun key ↦ ?_, fun url ↦ ?_, ?_⟩
  · refine le_trans (List.countP_mono_left fun scan _ hactive ↦ ?_)
      (h.perWebsite.countP_le_one hnumbered.scans.1 (userId, websiteId))
    simp only [Scan.isActiveFor, Bool.and_eq_true, decide_eq_true_eq] at hactive
    obtain ⟨⟨rfl, rfl⟩, hactive⟩ := hactive
    exact decide_eq_true (if_pos hactive)
  · refine le_trans (List.countP_mono_left fun scan _ hkey ↦ ?_)
      (h.perKey.countP_le_one hnumbered.scans.1 (userId, key))
    simp only [Bool.and_eq_true, decide_eq_true_eq] at hkey
    obtain ⟨rfl, hkey⟩ := hkey
    rw [Scan.keyIndex, hkey]
    exact decide_eq_true rfl
  · refine le_trans (List.countP_mono_left fun website _ hurl ↦ ?_)
      (h.perUrl.countP_le_one hnumbered.websites.1 (userId, url))
    simp only [Bool.and_eq_true, decide_eq_true_eq] at hurl
    obtain ⟨⟨rfl, rfl⟩, hactive⟩ := hurl
    exact decide_eq_true (if_pos hactive)
  · intro scan hscan hactive
    obtain ⟨website, hmem, hid, howner, hwebsite⟩ := h.onWebsite scan hscan
    exact ⟨website, hmem, hid, howner, hwebsite hactive⟩

/-! ### Scans over a run -/

/-- How a scan changes: it keeps its columns, its status follows transitions, its versions do not
fall, and once it is terminal nothing changes. -/
structure Scan.Advances (scan next : Scan) : Prop where
  same : scan.Same next
  status : scan.status.Leads next.status
  remote : scan.remoteExecutionVersion ≤ next.remoteExecutionVersion
  version : scan.version ≤ next.version
  final : scan.status.isTerminal = true → next = scan

theorem Scan.Same.trans {first second third : Scan} (h : first.Same second)
    (h' : second.Same third) : first.Same third :=
  ⟨h'.id.trans h.id, h'.websiteId.trans h.websiteId,
    h'.requestedByUserId.trans h.requestedByUserId, h'.maxPages.trans h.maxPages,
    h'.maxDepth.trans h.maxDepth, h'.maxResponseBytes.trans h.maxResponseBytes,
    h'.maxDurationSeconds.trans h.maxDurationSeconds, h'.maxRedirects.trans h.maxRedirects,
    h'.concurrency.trans h.concurrency, h'.collectorVersion.trans h.collectorVersion,
    h'.idempotencyKeyHash.trans h.idempotencyKeyHash,
    h'.requestFingerprintHash.trans h.requestFingerprintHash⟩

theorem Scan.Advances.refl (scan : Scan) : scan.Advances scan :=
  ⟨.refl scan, .inl rfl, le_rfl, le_rfl, fun _ ↦ rfl⟩

theorem Scan.Advances.trans {first second third : Scan} (h : first.Advances second)
    (h' : second.Advances third) : first.Advances third where
  same := h.same.trans h'.same
  status := h.status.trans h'.status
  remote := h.remote.trans h'.remote
  version := h.version.trans h'.version
  final hterminal := by
    have hsecond := h.final hterminal
    rw [← hsecond] at hterminal
    rw [h'.final hterminal, hsecond]

theorem ScanMove.toAdvances {scan next : Scan} (h : ScanMove scan next) : scan.Advances next := by
  obtain ⟨hsame, hactive, hleads, hremote, hversion⟩ := h.advances
  exact ⟨hsame, hleads, hremote, hversion ▸ (Int.lt_succ scan.version).le,
    fun hterminal ↦ absurd (hactive.symm.trans hterminal) Bool.false_ne_true⟩

theorem Write.scans_grow (hwrite : Write env consuming delivering s s') (h : Numbered s) :
    Table.Grows Scan.Advances s.scans s'.scans := by
  obtain heq | ⟨website, -, keyHash, -, -, -, -, heq⟩ | ⟨scan, hscan, next, hmove, heq⟩ :=
    hwrite.scans_cases
  · rw [heq]
    exact .refl Scan.Advances.refl _
  · rw [heq]
    exact .append Scan.Advances.refl _ _
  · rw [heq]
    exact grows_replace Scan.Advances.refl h.scans.1 hscan hmove.advances.1.id.symm
      hmove.toAdvances

theorem Writes.scans_grow (hwrites : Writes env consuming delivering s s') (h : Numbered s) :
    Table.Grows Scan.Advances s.scans s'.scans := by
  induction hwrites with
  | refl => exact .refl Scan.Advances.refl _
  | tail hfirst hlast ih =>
    exact ih.trans Scan.Advances.trans
      (hlast.scans_grow (Writes.invariant Numbered.write hfirst h))

theorem run_scans_grow (h : Numbered s) (actions : List WorkflowAction) :
    Table.Grows Scan.Advances s.scans (run (WorkflowTables.step env) s actions).scans :=
  run_relation (R := fun s s' : WorkflowTables ↦ Table.Grows Scan.Advances s.scans s'.scans)
    (fun s action h ↦ (step_writes s action).invariant Numbered.write h)
    (fun s action h ↦ (step_writes s action).scans_grow h)
    (fun _ ↦ .refl Scan.Advances.refl _) (fun h h' ↦ h.trans Scan.Advances.trans h') h actions

/-! ### Checked rows -/

/-- What holds of a new scan and of a scan that moves holds of every scan after a write. -/
theorem Write.scans_forall {P : Scan → Prop} (hwrite : Write env consuming delivering s s')
    (hnew : ∀ website keyHash, P (s.nextScan env website keyHash))
    (hmove : ∀ scan next, ScanMove scan next → P scan → P next)
    (h : ∀ scan ∈ s.scans, P scan) : ∀ scan ∈ s'.scans, P scan := by
  obtain heq | ⟨website, -, keyHash, -, -, -, -, heq⟩ | ⟨scan, hscan, next, hmoved, heq⟩ :=
    hwrite.scans_cases
  · rwa [heq]
  · rw [heq]
    intro scan hscan
    rcases List.mem_append.1 hscan with hscan | hscan
    · exact h scan hscan
    · rw [List.mem_singleton.1 hscan]
      exact hnew website keyHash
  · rw [heq]
    intro other hother
    rcases mem_replace hother with rfl | ⟨hother, -⟩
    · exact hmove scan _ hmoved (h scan hscan)
    · exact h other hother

theorem Write.limited (hwrite : Write env consuming delivering s s')
    (h : ∀ scan ∈ s.scans, 1 ≤ scan.maxPages) : ∀ scan ∈ s'.scans, 1 ≤ scan.maxPages :=
  hwrite.scans_forall (fun _ _ ↦ env.limits.pages.1)
    (fun _ _ hmove h ↦ hmove.advances.1.maxPages.symm ▸ h) h

/-- A request for a scan leaves a scan with its identifier, its key and its fingerprint. -/
theorem createScan_keyed {userActive : Bool} {now : Instant}
    {userId websiteId correlationId : Uuid} {rawKey : Option String} {key : String}
    {result : Uuid × Bool} (hkey : env.keyHash rawKey = some key)
    (h : Returns (createScan env userActive now userId websiteId rawKey correlationId) s result
      s') :
    ∃ scan ∈ s'.scans, scan.id = result.1 ∧ scan.keyIndex = some (userId, key) ∧
      scan.requestFingerprintHash = some (env.scanFingerprint websiteId) := by
  obtain ⟨hash, scan, hhash, hfind, hfingerprint, rfl, rfl⟩ | ⟨website, hwebsite, -, -, -, rfl, rfl⟩
    := createScan_cases h
  · obtain ⟨hmem, huser, hindex⟩ := mem_of_findByKey hfind
    refine ⟨scan, hmem, rfl, ?_, hfingerprint⟩
    rw [Scan.keyIndex, hindex, huser, ← hhash, hkey]
    rfl
  · obtain ⟨-, rfl, rfl, -⟩ := mem_of_findWebsite hwebsite
    refine ⟨_, List.mem_append_right _ (List.mem_singleton_self _), rfl, ?_, ?_⟩
    · rw [hkey]
      rfl
    · rw [hkey]
      rfl

/-- A request for a scan under a key that a scan has gives that scan, and only to the same
request. -/
theorem createScan_of_keyed (hperKey : UniqueWhere Scan.id Scan.keyIndex s.scans)
    {scan : Scan} (hscan : scan ∈ s.scans) {userActive : Bool} {now : Instant}
    {userId websiteId correlationId : Uuid} {rawKey : Option String} {key : String}
    {result : Uuid × Bool} (hkey : env.keyHash rawKey = some key)
    (hindex : scan.keyIndex = some (userId, key)) (hnumbered : Numbered s)
    (h : Returns (createScan env userActive now userId websiteId rawKey correlationId) s result
      s') :
    result = (scan.id, true) ∧ s' = s ∧
      scan.requestFingerprintHash = some (env.scanFingerprint websiteId) := by
  obtain ⟨hash, found, hhash, hfind, hfingerprint, rfl, rfl⟩ | ⟨website, -, hnone, -⟩ :=
    createScan_cases h
  · obtain ⟨hmem, huser, hfound⟩ := mem_of_findByKey hfind
    have hfoundIndex : found.keyIndex = some (userId, key) := by
      rw [Scan.keyIndex, hfound, huser, ← hhash, hkey]
      rfl
    have hid := hperKey found hmem scan hscan (by rw [hfoundIndex]; exact Option.some_ne_none _)
      (hfoundIndex.trans hindex.symm)
    obtain rfl := eq_of_key_eq hnumbered.scans.1 hmem hscan hid
    exact ⟨rfl, rfl, hfingerprint⟩
  · exact absurd hindex (keyIndex_of_findByKey (hnone key hkey) hscan)

/-- Once a request under a key has been answered with a scan, every later request of the user under
that key that is answered at all is the same request, gives the same scan and changes nothing,
whatever happened in between. -/
theorem createScan_replays (env : WorkflowEnv) (earlier later : List WorkflowAction)
    {userActive userActive' : Bool} {now now' : Instant}
    {userId websiteId websiteId' correlationId correlationId' : Uuid} {raw raw' : String}
    {first second : Uuid × Bool} {s₁ s₂ : WorkflowTables}
    (hfirst : Returns (createScan env userActive now userId websiteId (some raw) correlationId)
      (WorkflowTables.after env earlier) first s₁)
    (hkey : env.keyHash (some raw') = env.keyHash (some raw))
    (hsecond : Returns (createScan env userActive' now' userId websiteId' (some raw')
      correlationId') (run (WorkflowTables.step env) s₁ later) second s₂) :
    second = (first.1, true) ∧ s₂ = run (WorkflowTables.step env) s₁ later ∧
      env.scanFingerprint websiteId' = env.scanFingerprint websiteId := by
  have hstart : WorkflowTables.after env (earlier ++
      [.createScan userActive now userId websiteId (some raw) correlationId]) = s₁ := by
    rw [WorkflowTables.after, run_concat, WorkflowTables.step]
    exact congrArg Prod.snd (commit_ok_iff.2 hfirst)
  obtain ⟨scan, hscan, hid, hindex, hfingerprint⟩ := createScan_keyed rfl hfirst
  subst hstart
  obtain ⟨scan', hscan', hadvances⟩ :=
    (run_scans_grow (numbered_after env _) later).exists_of_mem hscan
  rw [WorkflowTables.after, ← run_append] at hscan' hsecond ⊢
  have hindex' : scan'.keyIndex = some (userId, env.sha256Hex (strip raw)) := by
    rw [← hindex, Scan.keyIndex, Scan.keyIndex, hadvances.same.idempotencyKeyHash,
      hadvances.same.requestedByUserId]
  obtain ⟨rfl, rfl, hfingerprint'⟩ := createScan_of_keyed (admitted_after env _).perKey hscan'
    hkey hindex' (numbered_after env _) hsecond
  rw [hadvances.same.requestFingerprintHash, hfingerprint] at hfingerprint'
  exact ⟨by rw [hadvances.same.id, hid], rfl, (Option.some.inj hfingerprint').symm⟩

/-- Services with short hashes. -/
def sampleEnv : WorkflowEnv where
  parseTarget url := some ⟨url, url⟩
  isObviouslyNonPublicHostname _ := false
  uuidText id := toString id
  sha256Hex text := text
  writeScanPayload _ := []
  writeSiteClonePayload _ := []
  sha256 bytes := bytes
  limits := ⟨20, 3, 1_048_576, 900, 5, 4, by decide, by decide, by decide, by decide, by decide,
    by decide⟩
  siteClone := ⟨20, 1, 1, 1_048_576, 1, 1, 60, 1, 1⟩

/-- A website of user 7. -/
def sampleWebsites : List WorkflowAction :=
  [.createWebsite true 7 "shop" "shop.test"]

/-- The request of user 7 for a scan of the website under a key. -/
def sampleRequest (key : String) : WorkflowTx (Uuid × Bool) :=
  createScan sampleEnv true 0 7 1 (some key) 9

theorem createScan_replays_sample :
    ((2, true) : Uuid × Bool) = (2, true) ∧
      (commit (sampleRequest "k ") (commit (sampleRequest "k")
        (WorkflowTables.after sampleEnv sampleWebsites)).2).2 = run (WorkflowTables.step sampleEnv)
          (commit (sampleRequest "k") (WorkflowTables.after sampleEnv sampleWebsites)).2 [] ∧
      sampleEnv.scanFingerprint 1 = sampleEnv.scanFingerprint 1 :=
  @createScan_replays sampleEnv sampleWebsites [] true true 0 0 7 1 1 9 9 "k" "k " (2, false)
    (2, true) _ _ rfl rfl rfl

end WebLens.ControlPlane
