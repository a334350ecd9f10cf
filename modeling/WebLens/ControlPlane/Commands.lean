import WebLens.ControlPlane.Dispatch

/-!
# Commands of the Control Plane

The commands in the outbox, whatever became of their delivery. Each one is justified by a row of a
scan or a site clone, no two are of one type for one aggregate, and a command that cancels has a
greater version than the one it follows.
-/

set_option autoImplicit false
set_option relaxedAutoImplicit false

namespace WebLens.ControlPlane

open Lib Lib.Table Lib.Transaction Lib.Utf8
open Capture (Uuid)
open Crawler (Instant)

variable {env : WorkflowEnv} {consuming delivering : Prop} {s s' : WorkflowTables}

/-! ### Justified commands -/

/-- The commands that were enqueued. -/
def WorkflowTables.commands (s : WorkflowTables) : List Command :=
  s.outbox.map OutboxRow.command

/-- The command asks for the scan as it was admitted. -/
structure ScanRequestedBy (scan : Scan) (e : Crawler.ScanCommandEnvelope) : Prop where
  aggregate : e.aggregateType = "SCAN" ∧ e.aggregateId = scan.id ∧ e.aggregateVersion = 0 ∧
    e.messageType = "SCAN_REQUESTED" ∧ e.contractVersion = 1
  scanId : e.payload.scanId = scan.id
  ownerId : e.payload.ownerId = scan.requestedByUserId
  websiteId : e.payload.websiteId = scan.websiteId
  maxPages : e.payload.maxPages = scan.maxPages
  maxDepth : e.payload.maxDepth = scan.maxDepth
  maxResponseBytes : e.payload.maxResponseBytes = scan.maxResponseBytes
  maxDurationSeconds : e.payload.maxDurationSeconds = scan.maxDurationSeconds
  maxRedirects : e.payload.maxRedirects = scan.maxRedirects
  maxConcurrency : e.payload.maxConcurrency = scan.concurrency
  collectorVersion : e.payload.collectorVersion = ofText scan.collectorVersion

/-- The command cancels the scan, which its user has asked for. -/
structure ScanCancelledBy (scan : Scan) (e : Crawler.ScanCancelCommandEnvelope) : Prop where
  aggregate : e.aggregateType = "SCAN" ∧ e.aggregateId = scan.id ∧
    e.messageType = "SCAN_CANCEL_REQUESTED" ∧ e.contractVersion = 1
  scanId : e.payload.scanId = scan.id
  ownerId : e.payload.ownerId = scan.requestedByUserId
  version : 0 < e.aggregateVersion ∧ e.aggregateVersion ≤ scan.version
  status : scan.status ≠ .queued ∧ scan.status ≠ .running

/-- The command asks for the site clone of a scan that has ended. -/
structure CloneRequestedBy (env : WorkflowEnv) (clone : SiteCloneRow) (scan : Scan)
    (e : SiteClone.SiteCloneRequestedEnvelope) : Prop where
  aggregate : e.aggregateId = clone.id ∧ e.payload.siteCloneRequestId = clone.id
  ownerId : e.payload.ownerId = clone.ownerId
  scanId : e.payload.scanId = clone.scanId ∧ clone.scanId = scan.id
  rootUrl : e.payload.rootUrl = clone.targetUrl
  policy : e.payload.policy = { env.siteClone with
    maxPages := (min scan.maxPages env.siteClone.maxPages).toNat }
  version : (e.aggregateVersion : ℤ) ≤ clone.version
  status : clone.status ≠ .waitingForScan
  ended : scan.status.isTerminal = true ∧ scan.status ≠ .cancelled

/-- The command cancels the site clone, which its owner has asked for. -/
structure CloneCancelledBy (clone : SiteCloneRow) (e : SiteClone.SiteCloneCancelEnvelope) :
    Prop where
  aggregate : e.aggregateId = clone.id ∧ e.siteCloneRequestId = clone.id
  ownerId : e.ownerId = clone.ownerId
  version : (e.aggregateVersion : ℤ) ≤ clone.version
  status : clone.status.isLeaving = true

/-- The row that justifies a command is there. -/
def WorkflowTables.Justifies (env : WorkflowEnv) (s : WorkflowTables) : Command → Prop
  | .scanRequested e => ∃ scan ∈ s.scans, ScanRequestedBy scan e
  | .scanCancelRequested e => ∃ scan ∈ s.scans, ScanCancelledBy scan e
  | .siteClone (.requested e) =>
    ∃ clone ∈ s.siteClones, ∃ scan ∈ s.scans, CloneRequestedBy env clone scan e
  | .siteClone (.cancelRequested e) => ∃ clone ∈ s.siteClones, CloneCancelledBy clone e

theorem ScanRequestedBy.advance {scan next : Scan} {e : Crawler.ScanCommandEnvelope}
    (h : ScanRequestedBy scan e) (hsame : scan.Same next) : ScanRequestedBy next e := by
  obtain ⟨⟨htype, hid, haggregate⟩, hscanId, howner, hwebsite, hpages, hdepth, hbytes, hduration,
    hredirects, hconcurrency, hcollector⟩ := h
  exact ⟨⟨htype, hid.trans hsame.id.symm, haggregate⟩, hscanId.trans hsame.id.symm,
    howner.trans hsame.requestedByUserId.symm, hwebsite.trans hsame.websiteId.symm,
    hpages.trans hsame.maxPages.symm, hdepth.trans hsame.maxDepth.symm,
    hbytes.trans hsame.maxResponseBytes.symm, hduration.trans hsame.maxDurationSeconds.symm,
    hredirects.trans hsame.maxRedirects.symm, hconcurrency.trans hsame.concurrency.symm,
    hcollector.trans (congrArg ofText hsame.collectorVersion.symm)⟩

/-- A scan that is neither queued nor running stays so. -/
theorem ScanStatus.Leads.stopping {status next : ScanStatus} (h : status.Leads next)
    (hstatus : status ≠ .queued ∧ status ≠ .running) : next ≠ .queued ∧ next ≠ .running := by
  revert h hstatus
  unfold ScanStatus.Leads
  cases status <;> cases next <;> decide

theorem ScanCancelledBy.advance {scan next : Scan} {e : Crawler.ScanCancelCommandEnvelope}
    (h : ScanCancelledBy scan e) (hadvances : scan.Advances next) : ScanCancelledBy next e where
  aggregate := ⟨h.aggregate.1, h.aggregate.2.1.trans hadvances.same.id.symm, h.aggregate.2.2⟩
  scanId := h.scanId.trans hadvances.same.id.symm
  ownerId := h.ownerId.trans hadvances.same.requestedByUserId.symm
  version := ⟨h.version.1, h.version.2.trans hadvances.version⟩
  status := hadvances.status.stopping h.status

theorem CloneRequestedBy.advance {clone nextClone : SiteCloneRow} {scan nextScan : Scan}
    {e : SiteClone.SiteCloneRequestedEnvelope} (h : CloneRequestedBy env clone scan e)
    (hclone : clone.Advances nextClone) (hscan : scan.Advances nextScan) :
    CloneRequestedBy env nextClone nextScan e := by
  obtain rfl := hscan.final h.ended.1
  exact ⟨⟨h.aggregate.1.trans hclone.same.id.symm, h.aggregate.2.trans hclone.same.id.symm⟩,
    h.ownerId.trans hclone.same.ownerId.symm,
    ⟨h.scanId.1.trans hclone.same.scanId.symm, hclone.same.scanId.trans h.scanId.2⟩,
    h.rootUrl.trans hclone.same.targetUrl.symm, h.policy, h.version.trans hclone.version,
    fun hwaiting ↦ h.status (hclone.waiting hwaiting), h.ended⟩

theorem CloneCancelledBy.advance {clone next : SiteCloneRow}
    {e : SiteClone.SiteCloneCancelEnvelope} (h : CloneCancelledBy clone e)
    (hadvances : clone.Advances next) : CloneCancelledBy next e where
  aggregate := ⟨h.aggregate.1.trans hadvances.same.id.symm,
    h.aggregate.2.trans hadvances.same.id.symm⟩
  ownerId := h.ownerId.trans hadvances.same.ownerId.symm
  version := h.version.trans hadvances.version
  status := hadvances.leaving h.status

/-- A command stays justified as the rows advance. -/
theorem justifies_of_grows {command : Command} (h : s.Justifies env command)
    (hscans : Table.Grows Scan.Advances s.scans s'.scans)
    (hclones : Table.Grows SiteCloneRow.Advances s.siteClones s'.siteClones) :
    s'.Justifies env command := by
  cases command with
  | scanRequested e =>
    obtain ⟨scan, hmem, hby⟩ := h
    obtain ⟨next, hnext, hadvances⟩ := hscans.exists_of_mem hmem
    exact ⟨next, hnext, hby.advance hadvances.same⟩
  | scanCancelRequested e =>
    obtain ⟨scan, hmem, hby⟩ := h
    obtain ⟨next, hnext, hadvances⟩ := hscans.exists_of_mem hmem
    exact ⟨next, hnext, hby.advance hadvances⟩
  | siteClone envelope =>
    cases envelope with
    | requested e =>
      obtain ⟨clone, hclone, scan, hscan, hby⟩ := h
      obtain ⟨nextClone, hnextClone, hadvances⟩ := hclones.exists_of_mem hclone
      obtain ⟨nextScan, hnextScan, hadvances'⟩ := hscans.exists_of_mem hscan
      exact ⟨nextClone, hnextClone, nextScan, hnextScan, hby.advance hadvances hadvances'⟩
    | cancelRequested e =>
      obtain ⟨clone, hclone, hby⟩ := h
      obtain ⟨next, hnext, hadvances⟩ := hclones.exists_of_mem hclone
      exact ⟨next, hnext, hby.advance hadvances⟩

/-! ### One command of a type for an aggregate -/

/-- What a command asks for, and for what. -/
def Command.subject (command : Command) : String × String × Uuid :=
  (command.aggregateType, command.messageType, command.aggregateId)

/-- The scan for which a command was justified. -/
theorem scan_of_subject {command : Command} (h : s.Justifies env command) {id : Uuid}
    (hsubject : command.subject = ("SCAN", "SCAN_REQUESTED", id)) :
    ∃ scan ∈ s.scans, scan.id = id := by
  cases command with
  | scanRequested e =>
    obtain ⟨scan, hmem, hby⟩ := h
    obtain ⟨-, hrest⟩ := Prod.mk.inj hsubject
    exact ⟨scan, hmem, hby.aggregate.2.1.symm.trans (Prod.mk.inj hrest).2⟩
  | scanCancelRequested e =>
    obtain ⟨scan, hmem, hby⟩ := h
    obtain ⟨-, hrest⟩ := Prod.mk.inj hsubject
    exact absurd (hby.aggregate.2.2.1.symm.trans (Prod.mk.inj hrest).1) (by decide)
  | siteClone envelope =>
    have htype : "SITE_CLONE" = "SCAN" := (Prod.mk.inj hsubject).1
    exact absurd htype (by decide)

theorem cancelled_of_subject {command : Command} (h : s.Justifies env command) {id : Uuid}
    (hsubject : command.subject = ("SCAN", "SCAN_CANCEL_REQUESTED", id)) :
    ∃ scan ∈ s.scans, scan.id = id ∧ scan.status ≠ .queued ∧ scan.status ≠ .running := by
  cases command with
  | scanRequested e =>
    obtain ⟨scan, hmem, hby⟩ := h
    obtain ⟨-, hrest⟩ := Prod.mk.inj hsubject
    exact absurd (hby.aggregate.2.2.2.1.symm.trans (Prod.mk.inj hrest).1) (by decide)
  | scanCancelRequested e =>
    obtain ⟨scan, hmem, hby⟩ := h
    obtain ⟨-, hrest⟩ := Prod.mk.inj hsubject
    exact ⟨scan, hmem, hby.aggregate.2.1.symm.trans (Prod.mk.inj hrest).2, hby.status⟩
  | siteClone envelope =>
    have htype : "SITE_CLONE" = "SCAN" := (Prod.mk.inj hsubject).1
    exact absurd htype (by decide)

theorem dispatched_of_subject {command : Command} (h : s.Justifies env command) {id : Uuid}
    (hsubject : command.subject = ("SITE_CLONE", "SITE_CLONE_REQUESTED", id)) :
    ∃ clone ∈ s.siteClones, clone.id = id ∧ clone.status ≠ .waitingForScan := by
  cases command with
  | scanRequested e =>
    obtain ⟨scan, hmem, hby⟩ := h
    exact absurd (hby.aggregate.1.symm.trans (Prod.mk.inj hsubject).1) (by decide)
  | scanCancelRequested e =>
    obtain ⟨scan, hmem, hby⟩ := h
    exact absurd (hby.aggregate.1.symm.trans (Prod.mk.inj hsubject).1) (by decide)
  | siteClone envelope =>
    obtain ⟨-, hrest⟩ := Prod.mk.inj hsubject
    cases envelope with
    | requested e =>
      obtain ⟨clone, hclone, scan, hscan, hby⟩ := h
      exact ⟨clone, hclone, hby.aggregate.1.symm.trans (Prod.mk.inj hrest).2, hby.status⟩
    | cancelRequested e =>
      have htype : "SITE_CLONE_CANCEL_REQUESTED" = "SITE_CLONE_REQUESTED" := (Prod.mk.inj hrest).1
      exact absurd htype (by decide)

theorem leaving_of_subject {command : Command} (h : s.Justifies env command) {id : Uuid}
    (hsubject : command.subject = ("SITE_CLONE", "SITE_CLONE_CANCEL_REQUESTED", id)) :
    ∃ clone ∈ s.siteClones, clone.id = id ∧ clone.status.isLeaving = true := by
  cases command with
  | scanRequested e =>
    obtain ⟨scan, hmem, hby⟩ := h
    exact absurd (hby.aggregate.1.symm.trans (Prod.mk.inj hsubject).1) (by decide)
  | scanCancelRequested e =>
    obtain ⟨scan, hmem, hby⟩ := h
    exact absurd (hby.aggregate.1.symm.trans (Prod.mk.inj hsubject).1) (by decide)
  | siteClone envelope =>
    obtain ⟨-, hrest⟩ := Prod.mk.inj hsubject
    cases envelope with
    | requested e =>
      have htype : "SITE_CLONE_REQUESTED" = "SITE_CLONE_CANCEL_REQUESTED" := (Prod.mk.inj hrest).1
      exact absurd htype (by decide)
    | cancelRequested e =>
      obtain ⟨clone, hclone, hby⟩ := h
      exact ⟨clone, hclone, hby.aggregate.1.symm.trans (Prod.mk.inj hrest).2, hby.status⟩

/-- The row that a command is about. -/
def Command.aggregate (command : Command) : String × Uuid :=
  (command.aggregateType, command.aggregateId)

/-- The commands are justified, no two ask for the same of the same aggregate, and the versions of
those for one aggregate increase. -/
structure Commanded (env : WorkflowEnv) (s : WorkflowTables) : Prop where
  justified : ∀ command ∈ s.commands, s.Justifies env command
  unique : (s.commands.map Command.subject).Nodup
  ordered : s.commands.Pairwise fun first second ↦
    first.aggregate = second.aggregate → first.aggregateVersion < second.aggregateVersion

/-- What a write makes of the commands. -/
theorem Coordinated.commands_cases {scan : Scan} (h : Coordinated env scan s s') :
    s'.commands = s.commands ∨ ∃ now correlationId clone,
      s.siteCloneOf scan.id = some clone ∧ clone.status = .waitingForScan ∧
      scan.status.isTerminal = true ∧ scan.status ≠ .cancelled ∧
      s' = (s.saveSiteClone { clone with status := .queued }).withCommand now
        (cloneCommand env correlationId scan { clone with status := .queued }) := by
  cases h with
  | untouched => exact .inl rfl
  | dispatched now correlationId clone hclone hwaiting hterminal hstatus =>
    exact .inr ⟨now, correlationId, clone, hclone, hwaiting, hterminal, hstatus, rfl⟩
  | failed => exact .inl rfl

theorem commands_withCommand (now : Instant) (command : Uuid → Command) :
    (s.withCommand now command).commands = s.commands ++ [command s.nextUuid] := by
  unfold WorkflowTables.commands WorkflowTables.withCommand
  rw [List.map_append]
  rfl

/-- The versions count the flushes of a row. -/
structure Versioned (s : WorkflowTables) : Prop where
  scans : ∀ scan ∈ s.scans, 0 ≤ scan.version
  siteClones : ∀ clone ∈ s.siteClones, 0 ≤ clone.version

theorem Versioned.write (hwrite : Write env consuming delivering s s') (h : Versioned s) :
    Versioned s' where
  scans := by
    obtain heq | ⟨website, -, keyHash, -, -, -, -, heq⟩ | ⟨scan, hscan, next, hmove, heq⟩ :=
      hwrite.scans_cases
    · rw [heq]
      exact h.scans
    · rw [heq]
      intro scan hscan
      rcases List.mem_append.1 hscan with hscan | hscan
      · exact h.scans scan hscan
      · rw [List.mem_singleton.1 hscan]
        exact le_rfl
    · rw [heq]
      intro other hother
      rcases mem_replace hother with rfl | ⟨hother, -⟩
      · exact (h.scans scan hscan).trans hmove.toAdvances.version
      · exact h.scans other hother
  siteClones := by
    obtain heq | ⟨clone, -, -, hversion, -, -, -, heq, -⟩ | ⟨clone, hclone, next, hmove, heq⟩ :=
      hwrite.siteClones_cases
    · rw [heq]
      exact h.siteClones
    · rw [heq]
      intro other hother
      rcases List.mem_append.1 hother with hother | hother
      · exact h.siteClones other hother
      · rw [List.mem_singleton.1 hother, hversion]
    · rw [heq]
      intro other hother
      rcases mem_replace hother with rfl | ⟨hother, -⟩
      · exact (h.siteClones clone hclone).trans hmove.advances.1.version
      · exact h.siteClones other hother

theorem first_scanRequested (h : Commanded env s) (hnumbered : Numbered s) :
    ∀ other ∈ s.commands, other.subject ≠ ("SCAN", "SCAN_REQUESTED", s.nextUuid) := by
  intro other hother hsubject
  obtain ⟨scan, hscan, hid⟩ := scan_of_subject (h.justified other hother) hsubject
  exact absurd (hnumbered.scans.lt hscan) (hid ▸ Nat.lt_irrefl _)

theorem first_scanCancelled (h : Commanded env s) (hnumbered : Numbered s) {scan : Scan}
    (hscan : scan ∈ s.scans) (hstatus : scan.status = .queued ∨ scan.status = .running) :
    ∀ other ∈ s.commands, other.subject ≠ ("SCAN", "SCAN_CANCEL_REQUESTED", scan.id) := by
  intro other hother hsubject
  obtain ⟨found, hfound, hid, hqueued, hrunning⟩ :=
    cancelled_of_subject (h.justified other hother) hsubject
  obtain rfl := eq_of_key_eq hnumbered.scans.1 hfound hscan hid
  exact hstatus.elim hqueued hrunning

theorem first_cloneRequested (h : Commanded env s) (hnumbered : Numbered s) {clone : SiteCloneRow}
    (hclone : clone ∈ s.siteClones) (hwaiting : clone.status = .waitingForScan) :
    ∀ other ∈ s.commands, other.subject ≠ ("SITE_CLONE", "SITE_CLONE_REQUESTED", clone.id) := by
  intro other hother hsubject
  obtain ⟨found, hfound, hid, hdispatched⟩ :=
    dispatched_of_subject (h.justified other hother) hsubject
  obtain rfl := eq_of_key_eq hnumbered.siteClones.1 hfound hclone hid
  exact hdispatched hwaiting

theorem first_cloneCancelled (h : Commanded env s) (hnumbered : Numbered s) {clone : SiteCloneRow}
    (hclone : clone ∈ s.siteClones) (hstaying : clone.status.isLeaving = false) :
    ∀ other ∈ s.commands,
      other.subject ≠ ("SITE_CLONE", "SITE_CLONE_CANCEL_REQUESTED", clone.id) := by
  intro other hother hsubject
  obtain ⟨found, hfound, hid, hleaving⟩ :=
    leaving_of_subject (h.justified other hother) hsubject
  obtain rfl := eq_of_key_eq hnumbered.siteClones.1 hfound hclone hid
  exact absurd (hstaying.symm.trans hleaving) Bool.false_ne_true

/-- No command for a scan is newer than its row. -/
theorem version_le_scan {command : Command} (h : s.Justifies env command) (hnumbered : Numbered s)
    (hversioned : Versioned s) {scan : Scan} (hscan : scan ∈ s.scans)
    (haggregate : command.aggregate = ("SCAN", scan.id)) :
    command.aggregateVersion ≤ scan.version := by
  obtain ⟨htype, hid⟩ := Prod.mk.inj haggregate
  cases command with
  | scanRequested e =>
    obtain ⟨found, hfound, hby⟩ := h
    obtain rfl := eq_of_key_eq hnumbered.scans.1 hfound hscan (hby.aggregate.2.1.symm.trans hid)
    exact hby.aggregate.2.2.1.trans_le (hversioned.scans found hfound)
  | scanCancelRequested e =>
    obtain ⟨found, hfound, hby⟩ := h
    obtain rfl := eq_of_key_eq hnumbered.scans.1 hfound hscan (hby.aggregate.2.1.symm.trans hid)
    exact hby.version.2
  | siteClone envelope =>
    have htype : "SITE_CLONE" = "SCAN" := htype
    exact absurd htype (by decide)

/-- No command for a site clone is newer than its row. -/
theorem version_le_siteClone {command : Command} (h : s.Justifies env command)
    (hnumbered : Numbered s) {clone : SiteCloneRow} (hclone : clone ∈ s.siteClones)
    (haggregate : command.aggregate = ("SITE_CLONE", clone.id)) :
    command.aggregateVersion ≤ clone.version := by
  obtain ⟨htype, hid⟩ := Prod.mk.inj haggregate
  cases command with
  | scanRequested e =>
    obtain ⟨found, -, hby⟩ := h
    exact absurd (hby.aggregate.1.symm.trans htype) (by decide)
  | scanCancelRequested e =>
    obtain ⟨found, -, hby⟩ := h
    exact absurd (hby.aggregate.1.symm.trans htype) (by decide)
  | siteClone envelope =>
    cases envelope with
    | requested e =>
      obtain ⟨found, hfound, scan, -, hby⟩ := h
      obtain rfl := eq_of_key_eq hnumbered.siteClones.1 hfound hclone
        (hby.aggregate.1.symm.trans hid)
      exact hby.version
    | cancelRequested e =>
      obtain ⟨found, hfound, hby⟩ := h
      obtain rfl := eq_of_key_eq hnumbered.siteClones.1 hfound hclone
        (hby.aggregate.1.symm.trans hid)
      exact hby.version

/-- No command is about a scan that is yet to be added. -/
theorem not_aggregate_fresh {command : Command} (h : s.Justifies env command)
    (hnumbered : Numbered s) : command.aggregate ≠ ("SCAN", s.nextUuid) := by
  intro haggregate
  obtain ⟨htype, hid⟩ := Prod.mk.inj haggregate
  cases command with
  | scanRequested e =>
    obtain ⟨found, hfound, hby⟩ := h
    exact absurd (hnumbered.scans.lt hfound) (by rw [← hid, ← hby.aggregate.2.1]; exact lt_irrefl _)
  | scanCancelRequested e =>
    obtain ⟨found, hfound, hby⟩ := h
    exact absurd (hnumbered.scans.lt hfound) (by rw [← hid, ← hby.aggregate.2.1]; exact lt_irrefl _)
  | siteClone envelope =>
    have htype : "SITE_CLONE" = "SCAN" := htype
    exact absurd htype (by decide)

theorem cast_toNat_succ {version : ℤ} (h : 0 ≤ version) :
    (((version + 1).toNat : ℕ) : ℤ) = version + 1 :=
  Int.toNat_of_nonneg (Int.le_trans h (Int.lt_succ version).le)

/-- A write enqueues at most one command, which is justified, the first of its kind and newer than
the others for its aggregate. -/
theorem Write.commands_cases (hwrite : Write env consuming delivering s s') (hnumbered : Numbered s)
    (hversioned : Versioned s) (h : Commanded env s) :
    s'.commands = s.commands ∨ ∃ command, s'.commands = s.commands ++ [command] ∧
      s'.Justifies env command ∧ (∀ other ∈ s.commands, other.subject ≠ command.subject) ∧
      ∀ other ∈ s.commands, other.aggregate = command.aggregate →
        other.aggregateVersion < command.aggregateVersion := by
  cases hwrite with
  | scanAdded now website keyHash correlationId =>
    refine .inr ⟨.scanRequested (scanCommand (s.nextUuid + 1) correlationId now
      (s.nextScan env website keyHash) website), ?_, ?_, first_scanRequested h hnumbered, ?_⟩
    · unfold WorkflowTables.commands WorkflowTables.withScan
      rw [List.map_append]
      rfl
    · exact ⟨_, List.mem_append_right _ (List.mem_singleton_self _),
        ⟨rfl, rfl, rfl, rfl, rfl⟩, rfl, rfl, rfl, rfl, rfl, rfl, rfl, rfl, rfl, rfl⟩
    · exact fun other hother haggregate ↦
        absurd haggregate (not_aggregate_fresh (h.justified other hother) hnumbered)
  | scanCancelling now correlationId scan hscan hstatus =>
    refine .inr ⟨_, commands_withCommand now _, ?_,
      first_scanCancelled h hnumbered hscan hstatus, ?_⟩
    · exact ⟨_, mem_replace_self hscan rfl, ⟨rfl, rfl, rfl, rfl⟩, rfl, rfl,
        ⟨Int.lt_add_one_of_le (hversioned.scans scan hscan), le_rfl⟩, ScanStatus.noConfusion,
        ScanStatus.noConfusion⟩
    · intro other hother haggregate
      have hle := version_le_scan (h.justified other hother) hnumbered hversioned hscan haggregate
      exact Int.lt_add_one_of_le hle
  | cloneCancelling now correlationId clone next hclone hstatus hnext =>
    obtain ⟨hstaying, hleaving, -, hsame, -, hversion⟩ :=
      SiteCloneRow.requestCancellation_some hnext
    have hfirst := first_cloneCancelled h hnumbered hclone hstaying
    have hcast := cast_toNat_succ (hversion ▸ hversioned.siteClones clone hclone)
    rw [← hsame.id] at hfirst
    refine .inr ⟨_, commands_withCommand now _, ?_, hfirst, ?_⟩
    · exact ⟨_, mem_replace_self hclone hsame.id.symm, ⟨rfl, rfl⟩, rfl, hcast.le, hleaving⟩
    · intro other hother haggregate
      refine lt_of_lt_of_eq (Int.lt_add_one_of_le ?_) hcast.symm
      rw [hversion]
      exact version_le_siteClone (h.justified other hother) hnumbered hclone
        (haggregate.trans (congrArg (Prod.mk "SITE_CLONE") hsame.id))
  | scanProjected envelope scan next projection s₁ hvalid hnew hscan hid howner hprojection hnext
      hcoordinated =>
    have hsame := (ScanMove.projected projection next (Scan.projectionOf_some hprojection).limit
      hnext).advances.1
    obtain heq | ⟨now, correlationId, clone, hclone, hwaiting, hterminal, hended, rfl⟩ :=
      hcoordinated.commands_cases
    · exact .inl heq
    · obtain ⟨hmem, hsource⟩ := siteCloneOf_mem hclone
      have hcast := cast_toNat_succ (hversioned.siteClones clone hmem)
      refine .inr ⟨_, commands_withCommand now _, ?_,
        first_cloneRequested h hnumbered hmem hwaiting, ?_⟩
      · exact ⟨_, mem_replace_self hmem rfl, _, mem_replace_self hscan hsame.id.symm, ⟨rfl, rfl⟩,
          rfl, ⟨rfl, hsource⟩, rfl, rfl, hcast.le, SiteCloneStatus.noConfusion, hterminal, hended⟩
      · exact fun other hother haggregate ↦ lt_of_lt_of_eq (Int.lt_add_one_of_le
          (version_le_siteClone (h.justified other hother) hnumbered hmem haggregate)) hcast.symm
  | outboxMoved hdelivering sel set hmove =>
    exact .inl (map_update _ fun row _ _ ↦ hmove.command row)
  | websiteAdded => exact .inl rfl
  | websiteArchived => exact .inl rfl
  | cloneAdded => exact .inl rfl
  | cloneCancelled => exact .inl rfl
  | ignored => exact .inl rfl
  | cloneProjected => exact .inl rfl

theorem Commanded.write (hwrite : Write env consuming delivering s s') (hnumbered : Numbered s)
    (hversioned : Versioned s) (h : Commanded env s) : Commanded env s' := by
  have hkept : ∀ command ∈ s.commands, s'.Justifies env command := fun command hcommand ↦
    justifies_of_grows (h.justified command hcommand) (hwrite.scans_grow hnumbered)
      (hwrite.siteClones_grow hnumbered)
  obtain heq | ⟨command, heq, hjustified, hfirst, hnewer⟩ :=
    hwrite.commands_cases hnumbered hversioned h
  · exact ⟨heq ▸ hkept, heq ▸ h.unique, heq ▸ h.ordered⟩
  · refine ⟨fun other hother ↦ ?_, ?_, ?_⟩
    · rw [heq, List.mem_append, List.mem_singleton] at hother
      rcases hother with hother | rfl
      · exact hkept other hother
      · exact hjustified
    · rw [heq]
      exact nodup_map_concat h.unique hfirst
    · rw [heq, List.pairwise_append]
      refine ⟨h.ordered, List.pairwise_singleton _ _, fun other hother last hlast ↦ ?_⟩
      rw [List.mem_singleton.1 hlast]
      exact hnewer other hother

/-- What holds of the tables after every run: what is numbered, admitted and commanded. -/
structure Sound (env : WorkflowEnv) (s : WorkflowTables) : Prop where
  numbered : Numbered s
  admitted : Admitted s
  versioned : Versioned s
  commanded : Commanded env s

theorem sound_empty : Sound env {} where
  numbered := numbered_empty
  admitted := admitted_empty
  versioned := ⟨fun _ h ↦ absurd h List.not_mem_nil, fun _ h ↦ absurd h List.not_mem_nil⟩
  commanded := ⟨fun _ h ↦ absurd h List.not_mem_nil, List.nodup_nil, .nil⟩

theorem Sound.write (hwrite : Write env consuming delivering s s') (h : Sound env s) :
    Sound env s' where
  numbered := h.numbered.write hwrite
  admitted := h.admitted.write hwrite h.numbered
  versioned := h.versioned.write hwrite
  commanded := h.commanded.write hwrite h.numbered h.versioned

theorem sound_after (env : WorkflowEnv) (actions : List WorkflowAction) :
    Sound env (WorkflowTables.after env actions) :=
  after_invariant sound_empty Sound.write actions

/-! ### The unique keys of the outbox -/

/-- A command that is the first of its kind and has a fresh identifier meets the unique keys. -/
theorem conflicts_eq_false {command : Command} {next : Uuid}
    (houtbox : Serial OutboxRow.messageId next s.outbox) (hid : next ≤ command.messageId)
    (hfirst : ∀ other ∈ s.commands, other.subject ≠ command.subject) :
    s.outbox.any command.conflicts = false := by
  rw [List.any_eq_false]
  intro row hrow hconflicts
  simp only [Command.conflicts, Bool.or_eq_true, Bool.and_eq_true, decide_eq_true_eq] at hconflicts
  rcases hconflicts with hsame | ⟨⟨⟨htype, haggregate⟩, -⟩, hmessage⟩
  · exact absurd (houtbox.lt hrow) (Nat.not_lt.2 (hsame ▸ hid))
  · refine hfirst row.command (List.mem_map_of_mem hrow) ?_
    rw [Command.subject, Command.subject, htype, haggregate, hmessage]

theorem not_fails_enqueue {now : Instant} {command : Command} {error : WorkflowError}
    (h : s.outbox.any command.conflicts = false) : ¬ Fails (enqueue now command) s error := by
  unfold enqueue
  refine not_fails_bind not_fails_get fun first s₁ hget ↦ ?_
  obtain ⟨rfl, rfl⟩ := returns_get.1 hget
  exact not_fails_bind (not_fails_require_of h) fun _ _ _ ↦ not_fails_modify

theorem not_fails_hashOptional {rawKey : Option String} :
    ¬ Fails (hashOptional env rawKey) s .duplicateMessage := by
  cases rawKey with
  | none => exact not_fails_pure
  | some raw =>
    exact not_fails_bind (not_fails_require WorkflowError.noConfusion) fun _ _ _ ↦ not_fails_pure

theorem not_fails_createScan (h : Sound env s) {userActive : Bool} {now : Instant}
    {userId websiteId correlationId : Uuid} {rawKey : Option String} :
    ¬ Fails (createScan env userActive now userId websiteId rawKey correlationId) s
      .duplicateMessage := by
  unfold createScan
  refine not_fails_bind (not_fails_require WorkflowError.noConfusion) fun _ s₁ hactive ↦ ?_
  obtain ⟨-, rfl⟩ := returns_require.1 hactive
  refine not_fails_bind not_fails_get fun _ s₁ hget ↦ ?_
  obtain ⟨rfl, rfl⟩ := returns_get.1 hget
  refine not_fails_bind (not_fails_found WorkflowError.noConfusion) fun website s₁ hwebsite ↦ ?_
  obtain ⟨-, rfl⟩ := returns_found.1 hwebsite
  refine not_fails_bind (not_fails_require WorkflowError.noConfusion) fun _ s₁ hpublic ↦ ?_
  obtain ⟨-, rfl⟩ := returns_require.1 hpublic
  refine not_fails_bind not_fails_hashOptional fun keyHash s₁ hhash ↦ ?_
  obtain ⟨-, rfl⟩ := hashOptional_returns hhash
  extract_lets fingerprint
  cases keyHash.bind fun keyHash ↦ findByKey userId keyHash s₁.scans with
  | some existing =>
    exact not_fails_bind (not_fails_require WorkflowError.noConfusion) fun _ _ _ ↦ not_fails_pure
  | none =>
    refine not_fails_bind (not_fails_require WorkflowError.noConfusion) fun _ s₂ hidle ↦ ?_
    obtain ⟨-, rfl⟩ := returns_require.1 hidle
    refine not_fails_bind (not_fails_require WorkflowError.noConfusion) fun _ s₃ hquota ↦ ?_
    obtain ⟨-, rfl⟩ := returns_require.1 hquota
    refine not_fails_bind not_fails_modifyGet fun id s₄ hid ↦ ?_
    obtain ⟨rfl, rfl⟩ := returns_drawUuid.1 hid
    refine not_fails_bind not_fails_modify fun _ s₅ hscan ↦ ?_
    obtain rfl := returns_modify.1 hscan
    refine not_fails_bind not_fails_modifyGet fun messageId s₆ hmessage ↦ ?_
    obtain ⟨rfl, rfl⟩ := returns_drawUuid.1 hmessage
    refine not_fails_bind (not_fails_enqueue ?_) fun _ _ _ ↦ not_fails_pure
    exact conflicts_eq_false (s := s₃) (h.numbered.outbox) (Nat.le_succ _)
      (first_scanRequested h.commanded h.numbered)

theorem not_fails_enqueueCancellation (h : Sound env s) {now : Instant}
    {userId correlationId : Uuid} {scan : Scan} (hscan : scan ∈ s.scans)
    (hstatus : scan.status = .queued ∨ scan.status = .running) :
    ¬ Fails (enqueueCancellation now userId correlationId
      { scan with status := .cancelRequested }) s .duplicateMessage := by
  refine not_fails_bind not_fails_modify fun _ s₁ hsave ↦ ?_
  obtain rfl := returns_saveScan.1 hsave
  refine not_fails_bind not_fails_modifyGet fun messageId s₂ hmessage ↦ ?_
  obtain ⟨rfl, rfl⟩ := returns_drawUuid.1 hmessage
  exact not_fails_enqueue (conflicts_eq_false (s := s) h.numbered.outbox le_rfl
    (first_scanCancelled h.commanded h.numbered hscan hstatus))

theorem not_fails_cancelScan (h : Sound env s) {userActive : Bool} {now : Instant}
    {userId scanId correlationId : Uuid} :
    ¬ Fails (cancelScan userActive now userId scanId correlationId) s .duplicateMessage := by
  unfold cancelScan
  refine not_fails_bind (not_fails_require WorkflowError.noConfusion) fun _ s₁ hactive ↦ ?_
  obtain ⟨-, rfl⟩ := returns_require.1 hactive
  refine not_fails_bind not_fails_get fun _ s₁ hget ↦ ?_
  obtain ⟨rfl, rfl⟩ := returns_get.1 hget
  refine not_fails_bind (not_fails_found WorkflowError.noConfusion) fun scan s₁ hscan ↦ ?_
  obtain ⟨hfind, rfl⟩ := returns_found.1 hscan
  obtain ⟨hstatus, heq⟩ | ⟨-, heq⟩ | ⟨-, heq⟩ := scan.requestCancellation_cases
  · rw [heq]
    exact not_fails_bind (not_fails_enqueueCancellation h (mem_of_findScan hfind).1 hstatus)
      fun _ _ _ ↦ not_fails_pure
  · rw [heq]
    exact not_fails_pure
  · rw [heq]
    exact not_fails_throw WorkflowError.noConfusion

theorem not_fails_cancelForSiteClone (h : Sound env s) {now : Instant}
    {userId scanId correlationId : Uuid} :
    ¬ Fails (cancelForSiteClone now userId scanId correlationId) s .duplicateMessage := by
  unfold cancelForSiteClone
  refine not_fails_bind not_fails_get fun _ s₁ hget ↦ ?_
  obtain ⟨rfl, rfl⟩ := returns_get.1 hget
  refine not_fails_bind (not_fails_found WorkflowError.noConfusion) fun scan s₁ hscan ↦ ?_
  obtain ⟨hfind, rfl⟩ := returns_found.1 hscan
  obtain ⟨hstatus, heq⟩ | ⟨-, heq⟩ | ⟨-, heq⟩ := scan.requestCancellation_cases
  · rw [heq]
    exact not_fails_enqueueCancellation h (mem_of_findScan hfind).1 hstatus
  · rw [heq]
    exact not_fails_pure
  · rw [heq]
    exact not_fails_pure

theorem not_fails_createSiteClone (h : Sound env s) {userActive : Bool} {now : Instant}
    {ownerId correlationId : Uuid} {url : String} {rawKey : Option String} :
    ¬ Fails (createSiteClone env userActive now ownerId url rawKey correlationId) s
      .duplicateMessage := by
  unfold createSiteClone
  refine not_fails_bind (not_fails_require WorkflowError.noConfusion) fun _ s₁ hactive ↦ ?_
  obtain ⟨-, rfl⟩ := returns_require.1 hactive
  refine not_fails_bind (not_fails_found WorkflowError.noConfusion) fun target s₁ htarget ↦ ?_
  obtain ⟨-, rfl⟩ := returns_found.1 htarget
  refine not_fails_bind not_fails_hashOptional fun hashed s₁ hhash ↦ ?_
  obtain ⟨-, rfl⟩ := hashOptional_returns hhash
  refine not_fails_bind (not_fails_found WorkflowError.noConfusion) fun keyHash s₂ hkey ↦ ?_
  obtain ⟨-, rfl⟩ := returns_found.1 hkey
  extract_lets fingerprint
  refine not_fails_bind not_fails_get fun _ s₃ hget ↦ ?_
  obtain ⟨rfl, rfl⟩ := returns_get.1 hget
  cases s₃.siteClones.find? fun clone ↦ decide (clone.ownerId = ownerId) &&
      decide (clone.idempotencyKeyHash = keyHash) with
  | some existing =>
    exact not_fails_bind (not_fails_require WorkflowError.noConfusion) fun _ _ _ ↦ not_fails_pure
  | none =>
    refine not_fails_bind ?_ fun website s₄ hwebsite ↦ ?_
    · refine not_fails_bind (not_fails_found WorkflowError.noConfusion) fun _ s₄ hfound ↦ ?_
      refine not_fails_bind not_fails_get fun other s₅ _ ↦ ?_
      cases findActiveWebsite ownerId _ other.websites with
      | some existing => exact not_fails_pure
      | none =>
        refine not_fails_bind not_fails_modifyGet fun _ _ _ ↦ ?_
        refine not_fails_bind ?_ fun _ _ _ ↦ not_fails_pure
        exact not_fails_bind (not_fails_require WorkflowError.noConfusion) fun _ _ _ ↦
          not_fails_modify
    · have hsound := Writes.invariant Sound.write (resolveOrCreate_writes hwebsite).1 h
      refine not_fails_bind (not_fails_createScan hsound) fun _ _ _ ↦ ?_
      refine not_fails_bind not_fails_modifyGet fun _ _ _ ↦ ?_
      refine not_fails_bind not_fails_get fun _ _ _ ↦ ?_
      refine not_fails_bind (not_fails_require WorkflowError.noConfusion) fun _ _ _ ↦ ?_
      exact not_fails_bind not_fails_modify fun _ _ _ ↦ not_fails_pure

theorem not_fails_cancelOwnedSiteClone (h : Sound env s) {now : Instant}
    {ownerId siteCloneId correlationId : Uuid} :
    ¬ Fails (cancelOwnedSiteClone now ownerId siteCloneId correlationId) s
      .duplicateMessage := by
  unfold cancelOwnedSiteClone
  refine not_fails_bind not_fails_get fun _ s₁ hget ↦ ?_
  obtain ⟨rfl, rfl⟩ := returns_get.1 hget
  refine not_fails_bind (not_fails_found WorkflowError.noConfusion) fun clone s₁ hclone ↦ ?_
  obtain ⟨hfind, rfl⟩ := returns_found.1 hclone
  cases hnext : clone.requestCancellation with
  | none => exact not_fails_pure
  | some next =>
    refine not_fails_bind not_fails_modify fun _ s₂ hsave ↦ ?_
    obtain rfl := returns_saveSiteClone.1 hsave
    split_ifs
    · exact not_fails_pure
    · obtain ⟨hstaying, -, -, hsame, -⟩ := SiteCloneRow.requestCancellation_some hnext
      have hfirst := first_cloneCancelled h.commanded h.numbered (mem_of_findSiteClone hfind).1
        hstaying
      rw [← hsame.id] at hfirst
      refine not_fails_bind not_fails_modifyGet fun messageId s₃ hmessage ↦ ?_
      obtain ⟨rfl, rfl⟩ := returns_drawUuid.1 hmessage
      exact not_fails_bind (not_fails_enqueue (conflicts_eq_false (s := s₁) h.numbered.outbox le_rfl
        hfirst)) fun _ _ _ ↦ not_fails_pure

theorem not_fails_cancelSiteClone (h : Sound env s) {userActive : Bool} {now : Instant}
    {ownerId siteCloneId correlationId : Uuid} :
    ¬ Fails (cancelSiteClone userActive now ownerId siteCloneId correlationId) s
      .duplicateMessage := by
  unfold cancelSiteClone
  refine not_fails_bind (not_fails_require WorkflowError.noConfusion) fun _ s₁ hactive ↦ ?_
  obtain ⟨-, rfl⟩ := returns_require.1 hactive
  refine not_fails_bind not_fails_get fun _ s₁ hget ↦ ?_
  obtain ⟨rfl, rfl⟩ := returns_get.1 hget
  refine not_fails_bind (not_fails_found WorkflowError.noConfusion) fun snapshot s₁ hclone ↦ ?_
  obtain ⟨-, rfl⟩ := returns_found.1 hclone
  split_ifs
  · refine not_fails_bind (not_fails_cancelForSiteClone h) fun _ s₂ hcancelled ↦ ?_
    exact not_fails_cancelOwnedSiteClone
      (Writes.invariant Sound.write (cancelForSiteClone_writes hcancelled).1 h)
  · exact not_fails_cancelOwnedSiteClone h

theorem not_fails_onScanProjectionApplied {scan : Scan} {now : Instant}
    {correlationId next : Uuid} {error : WorkflowError}
    (hserial : Serial OutboxRow.messageId next s.outbox) (hnext : next ≤ s.nextUuid)
    (hfirst : ∀ clone ∈ s.siteClones, clone.status = .waitingForScan → ∀ other ∈ s.commands,
      other.subject ≠ ("SITE_CLONE", "SITE_CLONE_REQUESTED", clone.id)) :
    ¬ Fails (onScanProjectionApplied env now scan correlationId) s error := by
  unfold onScanProjectionApplied
  by_cases hactive : scan.status.isTerminal = false
  · rw [if_pos hactive]
    exact not_fails_pure
  rw [if_neg hactive]
  refine not_fails_bind not_fails_get fun _ s₁ hget ↦ ?_
  obtain ⟨rfl, rfl⟩ := returns_get.1 hget
  cases hclone : s₁.siteClones.find? fun clone ↦ decide (clone.scanId = scan.id) with
  | none => exact not_fails_pure
  | some clone =>
    simp only
    split_ifs with hcancelled
    · cases clone.failFromScan "SOURCE_SCAN_NOT_CLONEABLE"
          "The automatically created scan was cancelled before cloning could start." with
      | none => exact not_fails_pure
      | some next => exact not_fails_modify
    · cases hready : clone.markReadyForDispatch with
      | none => exact not_fails_pure
      | some ready =>
        unfold SiteCloneRow.markReadyForDispatch at hready
        split_ifs at hready with hwaiting
        have hready := Option.some.inj hready
        refine not_fails_bind not_fails_modify fun _ s₂ hsave ↦ ?_
        obtain rfl := returns_saveSiteClone.1 hsave
        refine not_fails_bind not_fails_modifyGet fun messageId s₃ hmessage ↦ ?_
        obtain ⟨rfl, rfl⟩ := returns_drawUuid.1 hmessage
        have hfirst := hfirst clone (List.mem_of_find?_eq_some hclone) (not_not.1 hwaiting)
        rw [← hready]
        exact not_fails_enqueue (conflicts_eq_false (s := s₁) hserial hnext hfirst)

theorem not_fails_consumeScanEvent (h : Sound env s) {now : Instant}
    {envelope : Crawler.ScanEventEnvelope} :
    ¬ Fails (consumeScanEvent env now envelope) s .duplicateMessage := by
  unfold consumeScanEvent
  refine not_fails_bind (not_fails_require WorkflowError.noConfusion) fun _ s₁ hvalid ↦ ?_
  obtain ⟨-, rfl⟩ := returns_require.1 hvalid
  refine not_fails_bind (not_fails_require WorkflowError.noConfusion) fun _ s₁ henvelope ↦ ?_
  obtain ⟨-, rfl⟩ := returns_require.1 henvelope
  extract_lets hash
  refine not_fails_bind not_fails_get fun _ s₁ hget ↦ ?_
  obtain ⟨rfl, rfl⟩ := returns_get.1 hget
  cases s₁.inbox.find? fun record ↦ decide (record.messageId = envelope.messageId) with
  | some record =>
    exact not_fails_bind (not_fails_require WorkflowError.noConfusion) fun _ _ _ ↦ not_fails_pure
  | none =>
    refine not_fails_bind (not_fails_found WorkflowError.noConfusion) fun scan s₂ hscan ↦ ?_
    obtain ⟨-, rfl⟩ := returns_found.1 hscan
    split_ifs
    · exact not_fails_bind not_fails_modify fun _ _ _ ↦ not_fails_pure
    refine not_fails_bind (not_fails_found WorkflowError.noConfusion) fun projection s₃ hfound ↦ ?_
    obtain ⟨-, rfl⟩ := returns_found.1 hfound
    cases hnext : scan.applyRemoteProjection projection with
    | error error =>
      obtain ⟨rfl, -⟩ := Scan.applyRemoteProjection_error hnext
      exact not_fails_throw WorkflowError.noConfusion
    | ok applied =>
      cases applied with
      | none => exact not_fails_bind not_fails_modify fun _ _ _ ↦ not_fails_pure
      | some next =>
        refine not_fails_bind (not_fails_require WorkflowError.noConfusion) fun _ s₄ hcheck ↦ ?_
        obtain ⟨-, rfl⟩ := returns_require.1 hcheck
        refine not_fails_bind not_fails_modify fun _ s₅ hsave ↦ ?_
        obtain rfl := returns_saveScan.1 hsave
        refine not_fails_bind (not_fails_onScanProjectionApplied (s := s₄.saveScan next)
          h.numbered.outbox le_rfl ?_) fun _ _ _ ↦
            not_fails_bind not_fails_modify fun _ _ _ ↦ not_fails_pure
        exact fun clone hclone hwaiting ↦
          first_cloneRequested h.commanded h.numbered hclone hwaiting

/-- In every state that transactions reach, each command of the outbox is justified by the row of
its aggregate, no two commands ask for the same of one aggregate, each is newer than those before it
for its aggregate, and no transaction ever fails on the unique keys of the outbox. -/
theorem commands_unique (env : WorkflowEnv) (actions : List WorkflowAction) (userActive : Bool)
    (now : Instant) (userId subjectId correlationId : Uuid) (url : String)
    (rawKey : Option String) (envelope : Crawler.ScanEventEnvelope) :
    (∀ command ∈ (WorkflowTables.after env actions).commands,
        (WorkflowTables.after env actions).Justifies env command) ∧
      ((WorkflowTables.after env actions).commands.map Command.subject).Nodup ∧
      ((WorkflowTables.after env actions).commands.Pairwise fun first second ↦
        first.aggregate = second.aggregate → first.aggregateVersion < second.aggregateVersion) ∧
      ¬ Fails (createScan env userActive now userId subjectId rawKey correlationId)
        (WorkflowTables.after env actions) .duplicateMessage ∧
      ¬ Fails (cancelScan userActive now userId subjectId correlationId)
        (WorkflowTables.after env actions) .duplicateMessage ∧
      ¬ Fails (createSiteClone env userActive now userId url rawKey correlationId)
        (WorkflowTables.after env actions) .duplicateMessage ∧
      ¬ Fails (cancelSiteClone userActive now userId subjectId correlationId)
        (WorkflowTables.after env actions) .duplicateMessage ∧
      ¬ Fails (consumeScanEvent env now envelope) (WorkflowTables.after env actions)
        .duplicateMessage := by
  have h := sound_after env actions
  exact ⟨h.commanded.justified, h.commanded.unique, h.commanded.ordered, not_fails_createScan h,
    not_fails_cancelScan h, not_fails_createSiteClone h, not_fails_cancelSiteClone h,
    not_fails_consumeScanEvent h⟩

end WebLens.ControlPlane
