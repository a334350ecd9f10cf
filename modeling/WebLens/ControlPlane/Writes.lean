import Mathlib.Logic.Relation
import WebLens.ControlPlane.Workflow
import WebLens.Crawler.Effects
import WebLens.Lib.Run

/-!
# What the transactions of the Control Plane write

`Write` lists everything that a transaction of the workflow writes, with what it checked before. A
transaction is a sequence of writes, so an invariant is proved by cases on a write and holds then
after every run of transactions.
-/

set_option autoImplicit false
set_option relaxedAutoImplicit false

namespace WebLens.ControlPlane

open Lib Lib.Utf8 Lib.Transaction
open Capture (Uuid)
open Crawler (Instant)

/-! ### The tables after a write -/

/-- The row of a command that was just enqueued. -/
def outboxRow (now : Instant) (command : Command) : OutboxRow where
  command := command
  availableAt := now
  createdAt := now

/-- The key of a request, when its header has one. -/
def WorkflowEnv.keyHash (env : WorkflowEnv) (rawKey : Option String) : Option String :=
  rawKey.map fun raw ↦ env.sha256Hex (strip raw)

/-- The fingerprint of a request for a scan of a website. -/
def WorkflowEnv.scanFingerprint (env : WorkflowEnv) (websiteId : Uuid) : String :=
  env.fingerprint "create-scan-v1" (env.uuidText websiteId)

/-- The scan that a request adds. -/
def WorkflowTables.nextScan (s : WorkflowTables) (env : WorkflowEnv) (website : Website)
    (keyHash : Option String) : Scan :=
  newScan s.nextUuid website.id website.ownerId env.limits collectorVersion keyHash
    (keyHash.map fun _ ↦ env.scanFingerprint website.id)

def WorkflowTables.withScan (s : WorkflowTables) (env : WorkflowEnv) (now : Instant)
    (website : Website) (keyHash : Option String) (correlationId : Uuid) : WorkflowTables :=
  { s with
    scans := s.scans ++ [s.nextScan env website keyHash]
    outbox := s.outbox ++ [outboxRow now (.scanRequested (scanCommand (s.nextUuid + 1)
      correlationId now (s.nextScan env website keyHash) website))]
    nextUuid := s.nextUuid + 2 }

/-- The tables after a command was enqueued under a drawn identifier. -/
def WorkflowTables.withCommand (s : WorkflowTables) (now : Instant) (command : Uuid → Command) :
    WorkflowTables :=
  { s with
    outbox := s.outbox ++ [outboxRow now (command s.nextUuid)]
    nextUuid := s.nextUuid + 1 }

def WorkflowTables.withInbox (s : WorkflowTables) (messageId : Uuid) (hash : ByteString) :
    WorkflowTables :=
  { s with inbox := s.inbox ++ [{ messageId := messageId, payloadSha256 := hash }] }

/-- The command that cancels a scan which was just saved. -/
def cancelCommand (now : Instant) (correlationId : Uuid) (scan : Scan) (messageId : Uuid) :
    Command :=
  .scanCancelRequested (scanCancelCommand messageId correlationId scan.requestedByUserId now
    { scan with version := scan.version + 1 })

/-- The command that cancels a site clone which was just saved. -/
def cloneCancelCommand (correlationId : Uuid) (clone : SiteCloneRow) (messageId : Uuid) :
    Command :=
  .siteClone (.cancelRequested (siteCloneCancelCommand messageId correlationId clone.ownerId
    { clone with version := clone.version + 1 }))

/-- The command that starts a site clone which was just saved. -/
def cloneCommand (env : WorkflowEnv) (correlationId : Uuid) (scan : Scan) (clone : SiteCloneRow)
    (messageId : Uuid) : Command :=
  .siteClone (.requested (siteCloneCommand env messageId correlationId scan
    { clone with version := clone.version + 1 }))

/-- The site clone of a scan. -/
def WorkflowTables.siteCloneOf (s : WorkflowTables) (scanId : Uuid) : Option SiteCloneRow :=
  s.siteClones.find? fun clone ↦ decide (clone.scanId = scanId)

/-! ### Writes -/

/-- What the coordinator makes of the tables when a scan was projected. -/
inductive Coordinated (env : WorkflowEnv) (scan : Scan) (s : WorkflowTables) :
    WorkflowTables → Prop
  /-- The scan is not terminal, or nothing waits for it. -/
  | untouched (hidle : scan.status.isTerminal = true → ∀ clone, s.siteCloneOf scan.id = some clone →
      clone.status ≠ .waitingForScan) : Coordinated env scan s s
  /-- The site clone that waited for the scan was dispatched. -/
  | dispatched (now : Instant) (correlationId : Uuid) (clone : SiteCloneRow)
      (hclone : s.siteCloneOf scan.id = some clone) (hwaiting : clone.status = .waitingForScan)
      (hterminal : scan.status.isTerminal = true) (hstatus : scan.status ≠ .cancelled) :
      Coordinated env scan s ((s.saveSiteClone { clone with status := .queued }).withCommand now
        (cloneCommand env correlationId scan { clone with status := .queued }))
  /-- The site clone of a cancelled scan failed. -/
  | failed (clone next : SiteCloneRow) (hclone : s.siteCloneOf scan.id = some clone)
      (hactive : clone.status.isTerminal = false) (hstatus : scan.status = .cancelled)
      (hnext : clone.failFromScan "SOURCE_SCAN_NOT_CLONEABLE"
        "The automatically created scan was cancelled before cloning could start." = some next) :
      Coordinated env scan s (s.saveSiteClone next)

/-- What a statement of the outbox does to the rows that it selects: it claims due rows, or ends the
delivery of the rows that a record still claims. -/
inductive OutboxMove (rows : List OutboxRow) :
    (OutboxRow → Bool) → (OutboxRow → OutboxRow) → Prop
  | claimed (now leaseUntil : Instant) (workerId : Uuid) (sel : OutboxRow → Bool)
      (hdue : ∀ row ∈ rows, sel row = true →
        ∃ due ∈ rows, due.messageId = row.messageId ∧ due.isDue now = true) :
      OutboxMove rows sel (OutboxRow.claim workerId leaseUntil)
  | delivered (record : OutboxRecord) :
      OutboxMove rows (OutboxRow.isClaimedBy record) OutboxRow.deliver
  | returned (record : OutboxRecord) (availableAt : Instant) :
      OutboxMove rows (OutboxRow.isClaimedBy record) (OutboxRow.retry availableAt)

theorem OutboxMove.command {rows : List OutboxRow} {sel : OutboxRow → Bool}
    {set : OutboxRow → OutboxRow} (h : OutboxMove rows sel set) (row : OutboxRow) :
    (set row).command = row.command := by
  cases h with
  | claimed => rfl
  | delivered => rfl
  | returned => rfl

/-- What a transaction writes at a time: for a request of a user, and also for an event when events
are consumed, and for a dispatcher when commands are delivered. -/
inductive Write (env : WorkflowEnv) (consuming delivering : Prop) (s : WorkflowTables) :
    WorkflowTables → Prop
  | websiteAdded (website : Website) (hid : website.id = s.nextUuid)
      (hstatus : website.status = .active)
      (hnew : findActiveWebsite website.ownerId website.canonicalUrl s.websites = none) :
      Write env consuming delivering s { s with
        websites := s.websites ++ [website]
        nextUuid := s.nextUuid + 1 }
  | websiteArchived (website : Website) (hwebsite : website ∈ s.websites)
      (hidle : s.scans.any (Scan.isActiveFor website.id website.ownerId) = false) :
      Write env consuming delivering s { s with
        websites := Table.update (fun other ↦ decide (other.id = website.id))
          (fun other ↦ { other with status := .archived, version := other.version + 1 })
          s.websites }
  /-- A scan was admitted, and its command enqueued. -/
  | scanAdded (now : Instant) (website : Website) (keyHash : Option String) (correlationId : Uuid)
      (hwebsite : website ∈ s.websites) (hstatus : website.status = .active)
      (hkey : ∀ key ∈ keyHash, findByKey website.ownerId key s.scans = none)
      (hidle : s.scans.any (Scan.isActiveFor website.id website.ownerId) = false)
      (hquota : s.scans.countP (fun scan ↦ decide (scan.requestedByUserId = website.ownerId) &&
        scan.status.isActive) < maxActiveScansPerUser) :
      Write env consuming delivering s (s.withScan env now website keyHash correlationId)
  /-- A user asked to cancel a scan, and the command was enqueued. -/
  | scanCancelling (now : Instant) (correlationId : Uuid) (scan : Scan) (hscan : scan ∈ s.scans)
      (hstatus : scan.status = .queued ∨ scan.status = .running) :
      Write env consuming delivering s
        ((s.saveScan { scan with status := .cancelRequested }).withCommand now
          (cancelCommand now correlationId { scan with status := .cancelRequested }))
  | cloneAdded (clone : SiteCloneRow) (scan : Scan) (hid : clone.id = s.nextUuid)
      (hfresh : clone.status = .waitingForScan ∧ clone.version = 0 ∧ clone.remoteJobVersion = 0)
      (hscan : scan ∈ s.scans) (hscanId : clone.scanId = scan.id)
      (howner : clone.ownerId = scan.requestedByUserId)
      (hsource : s.siteClones.all (fun other ↦ !decide (other.scanId = clone.scanId)) = true)
      (hkey : ∀ other ∈ s.siteClones, other.ownerId = clone.ownerId →
        other.idempotencyKeyHash ≠ clone.idempotencyKeyHash) :
      Write env consuming delivering s { s with
        siteClones := s.siteClones ++ [clone]
        nextUuid := s.nextUuid + 1 }
  /-- A user cancelled a site clone that was waiting. -/
  | cloneCancelled (clone : SiteCloneRow) (hclone : clone ∈ s.siteClones)
      (hstatus : clone.status = .waitingForScan) :
      Write env consuming delivering s (s.saveSiteClone { clone with status := .cancelled })
  /-- A user asked to cancel a site clone that was dispatched, and the command was enqueued. -/
  | cloneCancelling (now : Instant) (correlationId : Uuid) (clone next : SiteCloneRow)
      (hclone : clone ∈ s.siteClones) (hstatus : clone.status ≠ .waitingForScan)
      (hnext : clone.requestCancellation = some next) :
      Write env consuming delivering s
        ((s.saveSiteClone next).withCommand now (cloneCancelCommand correlationId next))
  /-- An event came too late. -/
  | ignored (messageId : Uuid) (hash : ByteString)
      (hnew : s.inbox.find? (fun record ↦ decide (record.messageId = messageId)) = none)
      (hconsuming : consuming) :
      Write env consuming delivering s (s.withInbox messageId hash)
  /-- An event of the crawler was applied. -/
  | scanProjected (envelope : Crawler.ScanEventEnvelope) (scan next : Scan)
      (projection : RemoteScanProjection) (s' : WorkflowTables)
      (hvalid : isValidScanEvent envelope = true ∧ validateScanEnvelope envelope = true)
      (hnew : s.inbox.find? (fun record ↦ decide (record.messageId = envelope.messageId)) = none)
      (hscan : scan ∈ s.scans) (hid : scan.id = envelope.payload.scanId)
      (howner : scan.requestedByUserId = envelope.payload.ownerId)
      (hprojection : scan.projectionOf envelope = some projection)
      (hnext : scan.applyRemoteProjection projection = .ok (some next))
      (hcoordinated : Coordinated env next (s.saveScan next) s') (hconsuming : consuming) :
      Write env consuming delivering s (s'.withInbox envelope.messageId
        (env.sha256 (env.writeScanPayload envelope.payload)))
  /-- An event of the site clone worker was applied. -/
  | cloneProjected (envelope : SiteClone.SiteCloneEventEnvelope) (clone : SiteCloneRow)
      (next : SiteCloneRequest)
      (hnew : s.inbox.find? (fun record ↦ decide (record.messageId = envelope.messageId)) = none)
      (hclone : clone ∈ s.siteClones) (hid : clone.id = envelope.payload.siteCloneRequestId)
      (hnext : clone.toSiteCloneRequest.applyRemote envelope = .ok (some next))
      (hconsuming : consuming) :
      Write env consuming delivering s
        ((s.saveSiteClone { clone with toSiteCloneRequest := next }).withInbox
          envelope.messageId (env.sha256 (env.writeSiteClonePayload envelope.payload)))
  /-- Commands were claimed, completed or returned. -/
  | outboxMoved (hdelivering : delivering) (sel : OutboxRow → Bool) (set : OutboxRow → OutboxRow)
      (hmove : OutboxMove s.outbox sel set) :
      Write env consuming delivering s { s with outbox := Table.update sel set s.outbox }

/-- What a transaction writes. -/
def Writes (env : WorkflowEnv) (consuming delivering : Prop) :
    WorkflowTables → WorkflowTables → Prop :=
  Relation.ReflTransGen (Write env consuming delivering)

/-- What every write keeps, every transaction keeps. -/
theorem Writes.invariant {env : WorkflowEnv} {consuming delivering : Prop}
    {P : WorkflowTables → Prop}
    (hwrite : ∀ {s s'}, Write env consuming delivering s s' → P s → P s') {s s' : WorkflowTables}
    (h : Writes env consuming delivering s s') (hs : P s) : P s' := by
  induction h with
  | refl => exact hs
  | tail _ hlast ih => exact hwrite hlast ih

/-! ### Statements -/

variable {env : WorkflowEnv} {s s' : WorkflowTables}

@[simp]
theorem returns_drawUuid {id : Uuid} :
    Returns drawUuid s id s' ↔ id = s.nextUuid ∧ s' = { s with nextUuid := s.nextUuid + 1 } := by
  simp only [drawUuid, returns_modifyGet, Prod.mk.injEq]
  exact and_congr eq_comm eq_comm

@[simp]
theorem returns_enqueue {now : Instant} {command : Command} {u : Unit} :
    Returns (enqueue now command) s u s' ↔
      s.outbox.any command.conflicts = false ∧
        s' = { s with outbox := s.outbox ++ [outboxRow now command] } := by
  simp only [enqueue, returns_bind, returns_get, returns_require, returns_modify, outboxRow]
  constructor
  · rintro ⟨_, _, ⟨rfl, rfl⟩, _, _, ⟨hconflicts, rfl⟩, rfl⟩
    exact ⟨hconflicts, rfl⟩
  · rintro ⟨hconflicts, rfl⟩
    exact ⟨s, s, ⟨rfl, rfl⟩, (), s, ⟨hconflicts, rfl⟩, rfl⟩

@[simp]
theorem returns_saveScan {scan : Scan} {u : Unit} :
    Returns (saveScan scan) s u s' ↔ s' = s.saveScan scan :=
  returns_modify

@[simp]
theorem returns_saveSiteClone {clone : SiteCloneRow} {u : Unit} :
    Returns (saveSiteClone clone) s u s' ↔ s' = s.saveSiteClone clone :=
  returns_modify

@[simp]
theorem returns_insertInbox {messageId : Uuid} {hash : ByteString} {u : Unit} :
    Returns (insertInbox messageId hash) s u s' ↔ s' = s.withInbox messageId hash :=
  returns_modify

@[simp]
theorem returns_insertWebsite {website : Website} {u : Unit} :
    Returns (insertWebsite website) s u s' ↔
      website.check = true ∧ s' = { s with websites := s.websites ++ [website] } := by
  simp only [insertWebsite, returns_bind, returns_require, returns_modify]
  constructor
  · rintro ⟨_, _, ⟨hcheck, rfl⟩, rfl⟩
    exact ⟨hcheck, rfl⟩
  · rintro ⟨hcheck, rfl⟩
    exact ⟨(), s, ⟨hcheck, rfl⟩, rfl⟩

theorem hashOptional_returns {rawKey keyHash : Option String}
    (h : Returns (hashOptional env rawKey) s keyHash s') :
    keyHash = env.keyHash rawKey ∧ s' = s := by
  cases rawKey with
  | none => exact returns_pure.1 h
  | some raw =>
    simp only [hashOptional, returns_bind, returns_require, returns_pure] at h
    obtain ⟨_, _, ⟨-, rfl⟩, rfl, rfl⟩ := h
    exact ⟨rfl, rfl⟩

theorem Write.writes {consuming delivering : Prop} (h : Write env consuming delivering s s') :
    Writes env consuming delivering s s' :=
  .single h

/-- What a request writes, it writes also when events are consumed and commands delivered. -/
theorem Writes.mono {consuming consuming' delivering delivering' : Prop}
    (h : Writes env consuming delivering s s') (hconsuming : consuming → consuming')
    (hdelivering : delivering → delivering') : Writes env consuming' delivering' s s' := by
  refine Relation.ReflTransGen.mono (fun _ _ hwrite ↦ ?_) _ _ h
  cases hwrite with
  | websiteAdded website hid hstatus hnew => exact .websiteAdded website hid hstatus hnew
  | websiteArchived website hwebsite hidle => exact .websiteArchived website hwebsite hidle
  | scanAdded now website keyHash correlationId hwebsite hstatus hkey hidle hquota =>
    exact .scanAdded now website keyHash correlationId hwebsite hstatus hkey hidle hquota
  | scanCancelling now correlationId scan hscan hstatus =>
    exact .scanCancelling now correlationId scan hscan hstatus
  | cloneAdded clone scan hid hfresh hscan hscanId howner hsource hkey =>
    exact .cloneAdded clone scan hid hfresh hscan hscanId howner hsource hkey
  | cloneCancelled clone hclone hstatus => exact .cloneCancelled clone hclone hstatus
  | cloneCancelling now correlationId clone next hclone hstatus hnext =>
    exact .cloneCancelling now correlationId clone next hclone hstatus hnext
  | ignored messageId hash hnew hconsumed =>
    exact .ignored messageId hash hnew (hconsuming hconsumed)
  | scanProjected envelope scan next projection s' hvalid hnew hscan hid howner hprojection hnext
      hcoordinated hconsumed =>
    exact .scanProjected envelope scan next projection s' hvalid hnew hscan hid howner hprojection
      hnext hcoordinated (hconsuming hconsumed)
  | cloneProjected envelope clone next hnew hclone hid hnext hconsumed =>
    exact .cloneProjected envelope clone next hnew hclone hid hnext (hconsuming hconsumed)
  | outboxMoved hdelivered sel set hmove =>
    exact .outboxMoved (hdelivering hdelivered) sel set hmove

/-! ### Websites -/

theorem mem_of_findWebsite {websiteId ownerId : Uuid} {websites : List Website} {website : Website}
    (h : findWebsiteForUpdate websiteId ownerId websites = some website) :
    website ∈ websites ∧ website.id = websiteId ∧ website.ownerId = ownerId ∧
      website.status = .active := by
  have hprop := List.find?_some h
  simp only [Bool.and_eq_true, decide_eq_true_eq] at hprop
  exact ⟨List.mem_of_find?_eq_some h, hprop.1.1, hprop.1.2, hprop.2⟩

theorem createWebsite_writes {userActive : Bool} {ownerId id : Uuid} {name url : String}
    (h : Returns (createWebsite env userActive ownerId name url) s id s') :
    Writes env False False s s' := by
  simp only [createWebsite, returns_bind, returns_require, returns_found, returns_get,
    returns_drawUuid, returns_insertWebsite, returns_pure] at h
  obtain ⟨_, _, ⟨-, rfl⟩, target, _, ⟨-, rfl⟩, _, _, ⟨rfl, rfl⟩, _, _, ⟨hnew, rfl⟩, _, _,
    ⟨rfl, rfl⟩, _, _, ⟨-, rfl⟩, -, rfl⟩ := h
  exact (Write.websiteAdded _ rfl rfl hnew).writes

/-- The website of a site clone was there or has been added, and nothing else has changed. -/
theorem resolveOrCreate_writes {ownerId : Uuid} {rawUrl : String} {website : Website}
    (h : Returns (resolveOrCreateForSiteClone env ownerId rawUrl) s website s') :
    Writes env False False s s' ∧ s'.siteClones = s.siteClones ∧ s'.scans = s.scans := by
  simp only [resolveOrCreateForSiteClone, returns_bind, returns_found, returns_get] at h
  obtain ⟨target, _, ⟨-, rfl⟩, _, s, ⟨rfl, rfl⟩, h⟩ := h
  cases hfind : findActiveWebsite ownerId target.canonicalUrl s.websites with
  | some existing =>
    simp only [hfind, returns_pure] at h
    obtain ⟨-, rfl⟩ := h
    exact ⟨.refl, rfl, rfl⟩
  | none =>
    simp only [hfind, returns_bind, returns_drawUuid, returns_insertWebsite, returns_pure] at h
    obtain ⟨_, _, ⟨rfl, rfl⟩, _, _, ⟨-, rfl⟩, -, rfl⟩ := h
    exact ⟨(Write.websiteAdded _ rfl rfl hfind).writes, rfl, rfl⟩

theorem archiveWebsite_writes {userActive : Bool} {ownerId websiteId : Uuid} {u : Unit}
    (h : Returns (archiveWebsite userActive ownerId websiteId) s u s') :
    Writes env False False s s' := by
  simp only [archiveWebsite, returns_bind, returns_require, returns_found, returns_get,
    returns_modify] at h
  obtain ⟨_, _, ⟨-, rfl⟩, _, _, ⟨rfl, rfl⟩, website, _, ⟨hfind, rfl⟩, _, _, ⟨hidle, rfl⟩, rfl⟩ := h
  obtain ⟨hmem, rfl, rfl, -⟩ := mem_of_findWebsite hfind
  exact (Write.websiteArchived website hmem hidle).writes

/-! ### Scans -/

theorem mem_of_findByKey {userId : Uuid} {keyHash : String} {scans : List Scan} {scan : Scan}
    (h : findByKey userId keyHash scans = some scan) :
    scan ∈ scans ∧ scan.requestedByUserId = userId ∧ scan.idempotencyKeyHash = some keyHash := by
  have hprop := List.find?_some h
  simp only [Bool.and_eq_true, decide_eq_true_eq] at hprop
  exact ⟨List.mem_of_find?_eq_some h, hprop⟩

theorem mem_of_findScan {scanId userId : Uuid} {scans : List Scan} {scan : Scan}
    (h : findScanForUpdate scanId userId scans = some scan) :
    scan ∈ scans ∧ scan.id = scanId ∧ scan.requestedByUserId = userId := by
  have hprop := List.find?_some h
  simp only [Bool.and_eq_true, decide_eq_true_eq] at hprop
  exact ⟨List.mem_of_find?_eq_some h, hprop⟩

/-- A request for a scan gives the scan under its key, or admits a new one. -/
theorem createScan_cases {userActive : Bool} {now : Instant} {userId websiteId correlationId : Uuid}
    {rawKey : Option String} {result : Uuid × Bool}
    (h : Returns (createScan env userActive now userId websiteId rawKey correlationId) s result
      s') :
    (∃ keyHash scan, env.keyHash rawKey = some keyHash ∧
        findByKey userId keyHash s.scans = some scan ∧
        scan.requestFingerprintHash = some (env.scanFingerprint websiteId) ∧
        result = (scan.id, true) ∧ s' = s) ∨
      ∃ website, findWebsiteForUpdate websiteId userId s.websites = some website ∧
        (∀ key ∈ env.keyHash rawKey, findByKey userId key s.scans = none) ∧
        s.scans.any (Scan.isActiveFor websiteId userId) = false ∧
        s.scans.countP (fun scan ↦ decide (scan.requestedByUserId = userId) &&
          scan.status.isActive) < maxActiveScansPerUser ∧
        result = (s.nextUuid, false) ∧
        s' = s.withScan env now website (env.keyHash rawKey) correlationId := by
  simp only [createScan, returns_bind, returns_require, returns_found, returns_get] at h
  obtain ⟨_, _, ⟨-, rfl⟩, _, _, ⟨rfl, rfl⟩, website, _, ⟨hwebsite, rfl⟩, _, _, ⟨-, rfl⟩, keyHash,
    s, hhash, h⟩ := h
  obtain ⟨rfl, rfl⟩ := hashOptional_returns hhash
  obtain ⟨-, hid, howner, -⟩ := mem_of_findWebsite hwebsite
  cases hfind : (env.keyHash rawKey).bind fun keyHash ↦ findByKey userId keyHash s.scans with
  | some existing =>
    simp only [hfind, returns_bind, returns_require, returns_pure] at h
    obtain ⟨_, _, ⟨hfingerprint, rfl⟩, rfl, rfl⟩ := h
    obtain ⟨keyHash, hkey, hfind⟩ := Option.bind_eq_some_iff.1 hfind
    rw [hkey] at hfingerprint
    exact .inl ⟨keyHash, existing, hkey, hfind, hfingerprint, rfl, rfl⟩
  | none =>
    simp only [hfind, returns_bind, returns_require, returns_drawUuid, returns_modify,
      returns_enqueue, returns_pure] at h
    obtain ⟨_, _, ⟨hidle, rfl⟩, _, _, ⟨hquota, rfl⟩, _, _, ⟨rfl, rfl⟩, _, _, rfl, _, _, ⟨rfl, rfl⟩,
      _, _, ⟨-, rfl⟩, rfl, rfl⟩ := h
    refine .inr ⟨website, hwebsite, ?_, hidle, hquota, rfl, ?_⟩
    · exact fun key hkey ↦ Option.bind_eq_none_iff.1 hfind key hkey
    · rw [← hid, ← howner]
      rfl

theorem createScan_writes {userActive : Bool} {now : Instant}
    {userId websiteId correlationId : Uuid} {rawKey : Option String} {result : Uuid × Bool}
    (h : Returns (createScan env userActive now userId websiteId rawKey correlationId) s result
      s') :
    Writes env False False s s' ∧ s'.siteClones = s.siteClones ∧
      ∃ scan ∈ s'.scans, scan.id = result.1 ∧ scan.requestedByUserId = userId := by
  obtain ⟨keyHash, scan, -, hfind, -, rfl, rfl⟩ |
    ⟨website, hwebsite, hkey, hidle, hquota, rfl, rfl⟩ := createScan_cases h
  · obtain ⟨hmem, huser, -⟩ := mem_of_findByKey hfind
    exact ⟨.refl, rfl, scan, hmem, rfl, huser⟩
  · obtain ⟨hmem, rfl, rfl, hstatus⟩ := mem_of_findWebsite hwebsite
    exact ⟨(Write.scanAdded now website _ correlationId hmem hstatus hkey hidle hquota).writes, rfl,
      _, List.mem_append_right _ (List.mem_singleton_self _), rfl, rfl⟩

theorem enqueueCancellation_returns {now : Instant} {userId correlationId : Uuid} {scan : Scan}
    {u : Unit} (h : Returns (enqueueCancellation now userId correlationId scan) s u s') :
    s' = (s.saveScan scan).withCommand now fun messageId ↦ .scanCancelRequested
      (scanCancelCommand messageId correlationId userId now
        { scan with version := scan.version + 1 }) := by
  simp only [enqueueCancellation, returns_bind, returns_saveScan, returns_drawUuid,
    returns_enqueue] at h
  obtain ⟨_, _, rfl, _, _, ⟨rfl, rfl⟩, -, rfl⟩ := h
  rfl

/-- The tables after a user asked to cancel one of his scans. -/
theorem cancelScan_cases {userActive : Bool} {now : Instant} {userId scanId correlationId : Uuid}
    {accepted : Bool}
    (h : Returns (cancelScan userActive now userId scanId correlationId) s accepted s') :
    ∃ scan, findScanForUpdate scanId userId s.scans = some scan ∧
      ((scan.status = .cancelRequested ∨ scan.status = .cancelled) ∧ accepted = false ∧ s' = s ∨
        (scan.status = .queued ∨ scan.status = .running) ∧ accepted = true ∧
          s' = (s.saveScan { scan with status := .cancelRequested }).withCommand now
            (cancelCommand now correlationId { scan with status := .cancelRequested })) := by
  simp only [cancelScan, returns_bind, returns_require, returns_found, returns_get] at h
  obtain ⟨_, _, ⟨-, rfl⟩, _, _, ⟨rfl, rfl⟩, scan, _, ⟨hfind, rfl⟩, h⟩ := h
  obtain ⟨-, -, rfl⟩ := mem_of_findScan hfind
  refine ⟨scan, hfind, ?_⟩
  obtain ⟨hstatus, heq⟩ | ⟨hstatus, heq⟩ | ⟨-, heq⟩ := scan.requestCancellation_cases
  · simp only [heq, returns_bind, returns_pure] at h
    obtain ⟨_, _, henqueued, rfl, rfl⟩ := h
    exact .inr ⟨hstatus, rfl, enqueueCancellation_returns henqueued⟩
  · simp only [heq, returns_pure] at h
    exact .inl ⟨hstatus, h⟩
  · simp only [heq] at h
    exact absurd h returns_throw

theorem cancelScan_writes {userActive : Bool} {now : Instant} {userId scanId correlationId : Uuid}
    {accepted : Bool}
    (h : Returns (cancelScan userActive now userId scanId correlationId) s accepted s') :
    Writes env False False s s' := by
  obtain ⟨scan, hfind, ⟨-, -, rfl⟩ | ⟨hstatus, -, rfl⟩⟩ := cancelScan_cases h
  · exact .refl
  · exact (Write.scanCancelling now correlationId scan (mem_of_findScan hfind).1 hstatus).writes

theorem cancelForSiteClone_writes {now : Instant} {userId scanId correlationId : Uuid} {u : Unit}
    (h : Returns (cancelForSiteClone now userId scanId correlationId) s u s') :
    Writes env False False s s' ∧ s'.siteClones = s.siteClones := by
  simp only [cancelForSiteClone, returns_bind, returns_found, returns_get] at h
  obtain ⟨_, _, ⟨rfl, rfl⟩, scan, _, ⟨hfind, rfl⟩, h⟩ := h
  obtain ⟨hmem, -, rfl⟩ := mem_of_findScan hfind
  obtain ⟨hstatus, heq⟩ | ⟨-, heq⟩ | ⟨-, heq⟩ := scan.requestCancellation_cases
  · simp only [heq] at h
    rw [enqueueCancellation_returns h]
    exact ⟨(Write.scanCancelling now correlationId scan hmem hstatus).writes, rfl⟩
  · simp only [heq, returns_pure] at h
    rw [h.2]
    exact ⟨.refl, rfl⟩
  · simp only [heq, returns_pure] at h
    rw [h.2]
    exact ⟨.refl, rfl⟩

/-! ### Site clones -/

theorem mem_of_findSiteClone {siteCloneId ownerId : Uuid} {clones : List SiteCloneRow}
    {clone : SiteCloneRow} (h : findSiteCloneForUpdate siteCloneId ownerId clones = some clone) :
    clone ∈ clones ∧ clone.id = siteCloneId ∧ clone.ownerId = ownerId := by
  have hprop := List.find?_some h
  simp only [Bool.and_eq_true, decide_eq_true_eq] at hprop
  exact ⟨List.mem_of_find?_eq_some h, hprop⟩

theorem createSiteClone_writes {userActive : Bool} {now : Instant} {ownerId correlationId : Uuid}
    {url : String} {rawKey : Option String} {result : Uuid × Bool}
    (h : Returns (createSiteClone env userActive now ownerId url rawKey correlationId) s result
      s') : Writes env False False s s' := by
  simp only [createSiteClone, returns_bind, returns_require, returns_found, returns_get] at h
  obtain ⟨_, _, ⟨-, rfl⟩, target, _, ⟨-, rfl⟩, hashed, _, hhash, keyHash, _, ⟨hkey, rfl⟩, _, s,
    ⟨rfl, rfl⟩, h⟩ := h
  obtain ⟨-, rfl⟩ := hashOptional_returns hhash
  cases hfind : s.siteClones.find? fun clone ↦ decide (clone.ownerId = ownerId) &&
      decide (clone.idempotencyKeyHash = keyHash) with
  | some existing =>
    simp only [hfind, returns_bind, returns_require, returns_pure] at h
    obtain ⟨_, _, ⟨-, rfl⟩, -, rfl⟩ := h
    exact .refl
  | none =>
    simp only [hfind, returns_bind, returns_require, returns_drawUuid, returns_get, returns_modify,
      returns_pure] at h
    obtain ⟨website, s₁, hwebsite, scan, s₂, hscan, _, _, ⟨rfl, rfl⟩, _, _, ⟨rfl, rfl⟩, _, _,
      ⟨hcheck, rfl⟩, _, _, rfl, -, rfl⟩ := h
    obtain ⟨hwrites₁, hclones₁, -⟩ := resolveOrCreate_writes hwebsite
    obtain ⟨hwrites₂, hclones₂, created, hmem, hid, huser⟩ := createScan_writes hscan
    simp only [SiteCloneRow.check, Bool.and_eq_true] at hcheck
    refine (hwrites₁.trans hwrites₂).tail (Write.cloneAdded _ created rfl ⟨rfl, rfl, rfl⟩ hmem
      hid.symm huser.symm hcheck.2 ?_)
    intro other hother howner
    rw [hclones₂, hclones₁] at hother
    have hother := List.find?_eq_none.1 hfind other hother
    simp only [Bool.and_eq_true, decide_eq_true_eq, not_and] at hother
    exact hother howner

/-- A user who cancels his site clone, once its scan is dealt with. -/
theorem cancelOwnedSiteClone_writes {now : Instant} {ownerId siteCloneId correlationId : Uuid}
    {accepted : Bool}
    (h : Returns (cancelOwnedSiteClone now ownerId siteCloneId correlationId) s accepted s') :
    Writes env False False s s' := by
  simp only [cancelOwnedSiteClone, returns_bind, returns_found, returns_get] at h
  obtain ⟨_, _, ⟨rfl, rfl⟩, clone, _, ⟨hfind, rfl⟩, h⟩ := h
  obtain ⟨hmem, -, rfl⟩ := mem_of_findSiteClone hfind
  cases hnext : clone.requestCancellation with
  | none =>
    simp only [hnext, returns_pure] at h
    rw [h.2]
    exact .refl
  | some next =>
    simp only [hnext, returns_bind, returns_saveSiteClone] at h
    obtain ⟨_, _, rfl, h⟩ := h
    by_cases hwaiting : clone.status = .waitingForScan
    · rw [if_pos hwaiting, returns_pure] at h
      have hcancelled : next = { clone with status := .cancelled } := by
        rw [SiteCloneRow.requestCancellation, hwaiting] at hnext
        exact (Option.some.inj hnext).symm
      rw [h.2, hcancelled]
      exact (Write.cloneCancelled clone hmem hwaiting).writes
    · have howner : next.ownerId = clone.ownerId := by
        unfold SiteCloneRow.requestCancellation at hnext
        split_ifs at hnext <;> rw [← Option.some.inj hnext]
      simp only [if_neg hwaiting, returns_bind, returns_drawUuid, returns_enqueue,
        returns_pure] at h
      obtain ⟨_, _, ⟨rfl, rfl⟩, _, _, ⟨-, rfl⟩, -, rfl⟩ := h
      rw [← howner]
      exact (Write.cloneCancelling now correlationId clone next hmem hwaiting hnext).writes

theorem cancelSiteClone_writes {userActive : Bool} {now : Instant}
    {ownerId siteCloneId correlationId : Uuid} {accepted : Bool}
    (h : Returns (cancelSiteClone userActive now ownerId siteCloneId correlationId) s accepted
      s') : Writes env False False s s' := by
  simp only [cancelSiteClone, returns_bind, returns_require, returns_found, returns_get] at h
  obtain ⟨_, _, ⟨-, rfl⟩, _, _, ⟨rfl, rfl⟩, snapshot, _, ⟨-, rfl⟩, h⟩ := h
  split_ifs at h with hwaiting
  · rw [returns_bind] at h
    obtain ⟨_, s₁, hscan, hclone⟩ := h
    exact (cancelForSiteClone_writes hscan).1.trans (cancelOwnedSiteClone_writes hclone)
  · exact cancelOwnedSiteClone_writes h

/-! ### Events -/

theorem onScanProjectionApplied_cases {now : Instant} {scan : Scan} {correlationId : Uuid}
    {u : Unit} (h : Returns (onScanProjectionApplied env now scan correlationId) s u s') :
    Coordinated env scan s s' := by
  unfold onScanProjectionApplied at h
  by_cases hactive : scan.status.isTerminal = false
  · rw [if_pos hactive, returns_pure] at h
    rw [h.2]
    exact .untouched fun hterminal ↦ absurd (hactive.symm.trans hterminal) Bool.false_ne_true
  simp only [if_neg hactive, returns_bind, returns_get] at h
  rw [Bool.not_eq_false] at hactive
  obtain ⟨_, s, ⟨rfl, rfl⟩, h⟩ := h
  cases hclone : s.siteClones.find? fun clone ↦ decide (clone.scanId = scan.id) with
  | none =>
    simp only [hclone, returns_pure] at h
    rw [h.2]
    exact .untouched fun _ clone hsome ↦ absurd (hsome.symm.trans hclone) (Option.some_ne_none _)
  | some clone =>
    simp only [hclone] at h
    by_cases hcancelled : scan.status = .cancelled
    · rw [if_pos hcancelled] at h
      cases hnext : clone.failFromScan "SOURCE_SCAN_NOT_CLONEABLE"
          "The automatically created scan was cancelled before cloning could start." with
      | none =>
        simp only [hnext, returns_pure] at h
        rw [h.2]
        refine .untouched fun _ other hsome hwaiting ↦ ?_
        obtain rfl := Option.some.inj (hclone.symm.trans hsome)
        rw [SiteCloneRow.failFromScan, hwaiting] at hnext
        exact absurd hnext (Option.some_ne_none _)
      | some next =>
        simp only [hnext, returns_saveSiteClone] at h
        rw [h]
        refine .failed clone next hclone ?_ hcancelled hnext
        unfold SiteCloneRow.failFromScan at hnext
        split_ifs at hnext with hterminal
        exact Bool.eq_false_iff.2 hterminal
    · rw [if_neg hcancelled] at h
      cases hnext : clone.markReadyForDispatch with
      | none =>
        simp only [hnext, returns_pure] at h
        rw [h.2]
        refine .untouched fun _ other hsome hwaiting ↦ ?_
        obtain rfl := Option.some.inj (hclone.symm.trans hsome)
        rw [SiteCloneRow.markReadyForDispatch, if_neg (not_not_intro hwaiting)] at hnext
        exact absurd hnext (Option.some_ne_none _)
      | some next =>
        simp only [hnext, returns_bind, returns_saveSiteClone, returns_drawUuid,
          returns_enqueue] at h
        obtain ⟨_, _, rfl, _, _, ⟨rfl, rfl⟩, -, rfl⟩ := h
        unfold SiteCloneRow.markReadyForDispatch at hnext
        split_ifs at hnext with hwaiting
        rw [← Option.some.inj hnext]
        exact .dispatched now correlationId clone hclone (not_not.1 hwaiting) hactive hcancelled

/-- A projection says what the event says, of a scan with its limit. -/
structure Projects (scan : Scan) (envelope : Crawler.ScanEventEnvelope)
    (projection : RemoteScanProjection) : Prop where
  version : projection.remoteVersion = envelope.aggregateVersion
  status : ScanStatus.valueOf (executionStatusText envelope.payload.status) =
    some projection.status
  discovered : projection.progress.discovered = envelope.payload.discoveredCount
  queued : projection.progress.queued = envelope.payload.queuedCount
  processed : projection.progress.processed = envelope.payload.processedCount
  succeeded : projection.progress.succeeded = envelope.payload.succeededCount
  failed : projection.progress.failed = envelope.payload.failedCount
  limit : projection.progress.limit = scan.maxPages
  analyticsExpected : projection.analyticsExpectedCount = envelope.payload.analyticsExpectedCount
  analyticsPublished :
    projection.analyticsPublishedCount = envelope.payload.analyticsPublishedCount
  terminalCode : projection.terminalCode = emptyToNull (some envelope.payload.terminalCode)
  terminalMessage :
    projection.terminalMessage = emptyToNull (some envelope.payload.terminalMessage)

theorem Scan.projectionOf_some {scan : Scan} {envelope : Crawler.ScanEventEnvelope}
    {projection : RemoteScanProjection} (h : scan.projectionOf envelope = some projection) :
    Projects scan envelope projection := by
  simp only [projectionOf, executionStatusText_toUpper, Option.bind_eq_some_iff] at h
  obtain ⟨status, hstatus, progress, hprogress, h⟩ := h
  split_ifs at h
  obtain ⟨hversion, hsame, rfl, hexpected, hpublished, hcode, hmessage⟩ :=
    RemoteScanProjection.of_eq_some h
  obtain ⟨hdiscovered, hqueued, hprocessed, hsucceeded, hfailed, hlimit⟩ :=
    ScanProgress.of_eq_some hprogress
  exact ⟨hversion, hsame ▸ hstatus, hdiscovered, hqueued, hprocessed, hsucceeded, hfailed, hlimit,
    hexpected, hpublished, hcode, hmessage⟩

theorem mem_of_findInbox {messageId : Uuid} {inbox : List InboxRecord} {record : InboxRecord}
    (h : inbox.find? (fun record ↦ decide (record.messageId = messageId)) = some record) :
    record ∈ inbox ∧ record.messageId = messageId := by
  have hid := List.find?_some h
  exact ⟨List.mem_of_find?_eq_some h, of_decide_eq_true hid⟩

/-- What the Control Plane does with an event of the crawler: it knows the message, or the event
comes too late, or it is applied. -/
inductive ScanEventConsumed (env : WorkflowEnv) (envelope : Crawler.ScanEventEnvelope)
    (s : WorkflowTables) : ConsumeOutcome → WorkflowTables → Prop
  | duplicate (record : InboxRecord) (hrecord : record ∈ s.inbox)
      (hid : record.messageId = envelope.messageId)
      (hhash : record.payloadSha256 = env.sha256 (env.writeScanPayload envelope.payload)) :
      ScanEventConsumed env envelope s .ignoredDuplicate s
  | stale (scan : Scan) (hscan : scan ∈ s.scans) (hid : scan.id = envelope.payload.scanId)
      (howner : scan.requestedByUserId = envelope.payload.ownerId)
      (hnew : s.inbox.find? (fun record ↦ decide (record.messageId = envelope.messageId)) = none)
      (hstale : envelope.aggregateVersion ≤ scan.remoteExecutionVersion ∨
        scan.status.isTerminal = true) :
      ScanEventConsumed env envelope s .ignoredStale (s.withInbox envelope.messageId
        (env.sha256 (env.writeScanPayload envelope.payload)))
  | applied (scan next : Scan) (projection : RemoteScanProjection) (s' : WorkflowTables)
      (hscan : scan ∈ s.scans) (hid : scan.id = envelope.payload.scanId)
      (howner : scan.requestedByUserId = envelope.payload.ownerId)
      (hvalid : isValidScanEvent envelope = true ∧ validateScanEnvelope envelope = true)
      (hnew : s.inbox.find? (fun record ↦ decide (record.messageId = envelope.messageId)) = none)
      (hprojection : scan.projectionOf envelope = some projection)
      (hnext : scan.applyRemoteProjection projection = .ok (some next))
      (hcoordinated : Coordinated env next (s.saveScan next) s') :
      ScanEventConsumed env envelope s .applied (s'.withInbox envelope.messageId
        (env.sha256 (env.writeScanPayload envelope.payload)))

theorem consumeScanEvent_cases {now : Instant} {envelope : Crawler.ScanEventEnvelope}
    {outcome : ConsumeOutcome} (h : Returns (consumeScanEvent env now envelope) s outcome s') :
    ScanEventConsumed env envelope s outcome s' := by
  simp only [consumeScanEvent, returns_bind, returns_require, returns_get] at h
  obtain ⟨_, _, ⟨hvalid, rfl⟩, _, _, ⟨henvelope, rfl⟩, _, s, ⟨rfl, rfl⟩, h⟩ := h
  cases hfind : s.inbox.find? fun record ↦ decide (record.messageId = envelope.messageId) with
  | some record =>
    simp only [hfind, returns_bind, returns_require, returns_pure] at h
    obtain ⟨_, _, ⟨hhash, rfl⟩, rfl, rfl⟩ := h
    obtain ⟨hrecord, hid⟩ := mem_of_findInbox hfind
    exact .duplicate record hrecord hid hhash
  | none =>
    simp only [hfind, returns_bind, returns_found] at h
    obtain ⟨scan, _, ⟨hscan, rfl⟩, h⟩ := h
    obtain ⟨hmem, hid, howner⟩ := mem_of_findScan hscan
    by_cases hstale : envelope.aggregateVersion ≤ scan.remoteExecutionVersion
    · simp only [if_pos hstale, returns_bind, returns_insertInbox, returns_pure] at h
      obtain ⟨_, _, rfl, rfl, rfl⟩ := h
      exact .stale scan hmem hid howner hfind (.inl hstale)
    simp only [if_neg hstale, returns_bind, returns_found] at h
    obtain ⟨projection, _, ⟨hprojection, rfl⟩, h⟩ := h
    cases hnext : scan.applyRemoteProjection projection with
    | error error =>
      obtain ⟨rfl, -⟩ := Scan.applyRemoteProjection_error hnext
      simp only [hnext] at h
      exact absurd h returns_throw
    | ok applied =>
      cases applied with
      | none =>
        simp only [hnext, returns_bind, returns_insertInbox, returns_pure] at h
        obtain ⟨_, _, rfl, rfl, rfl⟩ := h
        have hlate := Scan.applyRemoteProjection_none hnext
        rw [(Scan.projectionOf_some hprojection).version] at hlate
        exact .stale scan hmem hid howner hfind hlate
      | some next =>
        simp only [hnext, returns_bind, returns_require, returns_saveScan, returns_insertInbox,
          returns_pure] at h
        obtain ⟨_, _, ⟨-, rfl⟩, _, _, rfl, _, s₁, hcoordinated, _, _, rfl, rfl, rfl⟩ := h
        exact .applied scan next projection s₁ hmem hid howner ⟨hvalid, henvelope⟩ hfind
          hprojection hnext (onScanProjectionApplied_cases hcoordinated)

theorem ScanEventConsumed.writes {envelope : Crawler.ScanEventEnvelope}
    {outcome : ConsumeOutcome} (h : ScanEventConsumed env envelope s outcome s') :
    Writes env True False s s' := by
  cases h with
  | duplicate => exact .refl
  | stale scan hscan hid howner hnew => exact (Write.ignored _ _ hnew trivial).writes
  | applied scan next projection s₁ hscan hid howner hvalid hnew hprojection hnext hcoordinated =>
    exact (Write.scanProjected envelope scan next projection s₁ hvalid hnew hscan hid howner
      hprojection hnext hcoordinated trivial).writes

/-- What the Control Plane does with an event of the site clone worker. -/
inductive SiteCloneEventConsumed (env : WorkflowEnv)
    (envelope : SiteClone.SiteCloneEventEnvelope) (s : WorkflowTables) :
    ConsumeOutcome → WorkflowTables → Prop
  | duplicate (record : InboxRecord) (hrecord : record ∈ s.inbox)
      (hid : record.messageId = envelope.messageId)
      (hhash : record.payloadSha256 = env.sha256 (env.writeSiteClonePayload envelope.payload)) :
      SiteCloneEventConsumed env envelope s .ignoredDuplicate s
  | stale (hnew : s.inbox.find?
        (fun record ↦ decide (record.messageId = envelope.messageId)) = none) :
      SiteCloneEventConsumed env envelope s .ignoredStale (s.withInbox envelope.messageId
        (env.sha256 (env.writeSiteClonePayload envelope.payload)))
  | applied (clone : SiteCloneRow) (next : SiteCloneRequest) (hclone : clone ∈ s.siteClones)
      (hid : clone.id = envelope.payload.siteCloneRequestId)
      (hnew : s.inbox.find? (fun record ↦ decide (record.messageId = envelope.messageId)) = none)
      (hnext : clone.toSiteCloneRequest.applyRemote envelope = .ok (some next)) :
      SiteCloneEventConsumed env envelope s .applied
        ((s.saveSiteClone { clone with toSiteCloneRequest := next }).withInbox envelope.messageId
          (env.sha256 (env.writeSiteClonePayload envelope.payload)))

theorem consumeSiteCloneEvent_cases {envelope : SiteClone.SiteCloneEventEnvelope}
    {outcome : ConsumeOutcome}
    (h : Returns (consumeSiteCloneEvent env envelope) s outcome s') :
    SiteCloneEventConsumed env envelope s outcome s' := by
  simp only [consumeSiteCloneEvent, returns_bind, returns_require, returns_get] at h
  obtain ⟨_, _, ⟨-, rfl⟩, _, _, ⟨-, rfl⟩, _, s, ⟨rfl, rfl⟩, h⟩ := h
  cases hfind : s.inbox.find? fun record ↦ decide (record.messageId = envelope.messageId) with
  | some record =>
    simp only [hfind, returns_bind, returns_require, returns_pure] at h
    obtain ⟨_, _, ⟨hhash, rfl⟩, rfl, rfl⟩ := h
    obtain ⟨hrecord, hid⟩ := mem_of_findInbox hfind
    exact .duplicate record hrecord hid hhash
  | none =>
    simp only [hfind, returns_bind, returns_found] at h
    obtain ⟨clone, _, ⟨hclone, rfl⟩, h⟩ := h
    obtain ⟨hmem, hid, -⟩ := mem_of_findSiteClone hclone
    cases hnext : clone.toSiteCloneRequest.applyRemote envelope with
    | error error =>
      simp only [hnext] at h
      exact absurd h returns_throw
    | ok applied =>
      cases applied with
      | none =>
        simp only [hnext, returns_bind, returns_insertInbox, returns_pure] at h
        obtain ⟨_, _, rfl, rfl, rfl⟩ := h
        exact .stale hfind
      | some next =>
        simp only [hnext, returns_bind, returns_saveSiteClone, returns_insertInbox,
          returns_pure] at h
        obtain ⟨_, _, rfl, _, _, rfl, rfl, rfl⟩ := h
        exact .applied clone next hmem hid hfind hnext

theorem SiteCloneEventConsumed.writes {envelope : SiteClone.SiteCloneEventEnvelope}
    {outcome : ConsumeOutcome} (h : SiteCloneEventConsumed env envelope s outcome s') :
    Writes env True False s s' := by
  cases h with
  | duplicate => exact .refl
  | stale hnew => exact (Write.ignored _ _ hnew trivial).writes
  | applied clone next hclone hid hnew hnext =>
    exact (Write.cloneProjected envelope clone next hnew hclone hid hnext trivial).writes

/-! ### Runs -/

/-- A transaction with its arguments. -/
inductive WorkflowAction
  | createWebsite (userActive : Bool) (ownerId : Uuid) (name url : String)
  | archiveWebsite (userActive : Bool) (ownerId websiteId : Uuid)
  | createScan (userActive : Bool) (now : Instant) (userId websiteId : Uuid)
      (rawKey : Option String) (correlationId : Uuid)
  | cancelScan (userActive : Bool) (now : Instant) (userId scanId correlationId : Uuid)
  | createSiteClone (userActive : Bool) (now : Instant) (ownerId : Uuid) (url : String)
      (rawKey : Option String) (correlationId : Uuid)
  | cancelSiteClone (userActive : Bool) (now : Instant) (ownerId siteCloneId correlationId : Uuid)
  | consumeScanEvent (now : Instant) (envelope : Crawler.ScanEventEnvelope)
  | consumeSiteCloneEvent (envelope : SiteClone.SiteCloneEventEnvelope)
  | claim (dispatcher : Dispatcher) (now leaseUntil : Instant) (locked : List Uuid)
      (workerId : Uuid) (limit : ℕ)
  | complete (record : OutboxRecord)
  | retry (now : Instant) (leastBits : ℤ) (record : OutboxRecord)

/-- One transaction. A transaction that fails leaves the tables as they were. -/
def WorkflowTables.step (env : WorkflowEnv) (s : WorkflowTables) : WorkflowAction → WorkflowTables
  | .createWebsite userActive ownerId name url =>
    (commit (ControlPlane.createWebsite env userActive ownerId name url) s).2
  | .archiveWebsite userActive ownerId websiteId =>
    (commit (ControlPlane.archiveWebsite userActive ownerId websiteId) s).2
  | .createScan userActive now userId websiteId rawKey correlationId =>
    (commit (ControlPlane.createScan env userActive now userId websiteId rawKey correlationId) s).2
  | .cancelScan userActive now userId scanId correlationId =>
    (commit (ControlPlane.cancelScan userActive now userId scanId correlationId) s).2
  | .createSiteClone userActive now ownerId url rawKey correlationId =>
    (commit (ControlPlane.createSiteClone env userActive now ownerId url rawKey correlationId) s).2
  | .cancelSiteClone userActive now ownerId siteCloneId correlationId =>
    (commit (ControlPlane.cancelSiteClone userActive now ownerId siteCloneId correlationId) s).2
  | .consumeScanEvent now envelope =>
    (commit (ControlPlane.consumeScanEvent env now envelope) s).2
  | .consumeSiteCloneEvent envelope =>
    (commit (ControlPlane.consumeSiteCloneEvent env envelope) s).2
  | .claim dispatcher now leaseUntil locked workerId limit =>
    { s with outbox := (claimRows dispatcher now leaseUntil locked workerId limit s.outbox).2 }
  | .complete record => { s with outbox := (completeRows record s.outbox).2 }
  | .retry now leastBits record => { s with outbox := (retryRows now leastBits record s.outbox).2 }

/-- The tables after some transactions on empty ones. -/
def WorkflowTables.after (env : WorkflowEnv) (actions : List WorkflowAction) : WorkflowTables :=
  run (WorkflowTables.step env) {} actions

/-- A claim takes due rows of its dispatcher only. -/
theorem claimRows_due {dispatcher : Dispatcher} {now : Instant} {locked : List Uuid} {limit : ℕ}
    {rows : List OutboxRow} {messageId : Uuid}
    (h : messageId ∈ Crawler.claimIds OutboxRow.messageId
      (fun row ↦ dispatcher.takes row.command && row.isDue now) OutboxRow.availableAt
      OutboxRow.createdAt limit locked rows) :
    ∃ due ∈ rows, due.messageId = messageId ∧ due.isDue now = true := by
  obtain ⟨due, hmem, hid, hdue⟩ := Crawler.mem_claimIds h
  exact ⟨due, hmem, hid, (Bool.and_eq_true_iff.1 hdue).2⟩

/-- A transaction that writes when it succeeds writes when it is committed. -/
theorem commit_writes {α : Type} {consuming : Prop} {body : WorkflowTx α}
    (h : ∀ a s', Returns body s a s' → Writes env consuming False s s') :
    Writes env consuming False s (commit body s).2 :=
  commit_snd_induction .refl h

/-- Whether a transaction serves a request of a user. -/
def WorkflowAction.isRequest : WorkflowAction → Bool
  | .createWebsite .. | .archiveWebsite .. | .createScan .. | .cancelScan .. => true
  | .createSiteClone .. | .cancelSiteClone .. => true
  | .consumeScanEvent .. | .consumeSiteCloneEvent .. => false
  | .claim .. | .complete .. | .retry .. => false

theorem request_writes (s : WorkflowTables) {action : WorkflowAction}
    (h : action.isRequest = true) : Writes env False False s (s.step env action) := by
  cases action with
  | createWebsite userActive ownerId name url =>
    exact commit_writes fun _ _ h ↦ createWebsite_writes h
  | archiveWebsite userActive ownerId websiteId =>
    exact commit_writes fun _ _ h ↦ archiveWebsite_writes h
  | createScan userActive now userId websiteId rawKey correlationId =>
    exact commit_writes fun _ _ h ↦ (createScan_writes h).1
  | cancelScan userActive now userId scanId correlationId =>
    exact commit_writes fun _ _ h ↦ cancelScan_writes h
  | createSiteClone userActive now ownerId url rawKey correlationId =>
    exact commit_writes fun _ _ h ↦ createSiteClone_writes h
  | cancelSiteClone userActive now ownerId siteCloneId correlationId =>
    exact commit_writes fun _ _ h ↦ cancelSiteClone_writes h
  | consumeScanEvent => cases h
  | consumeSiteCloneEvent => cases h
  | claim => cases h
  | complete => cases h
  | retry => cases h

theorem step_writes (s : WorkflowTables) (action : WorkflowAction) :
    Writes env True True s (s.step env action) := by
  by_cases hrequest : action.isRequest = true
  · exact (request_writes s hrequest).mono False.elim False.elim
  cases action with
  | consumeScanEvent now envelope =>
    exact (commit_writes fun _ _ h ↦ (consumeScanEvent_cases h).writes).mono id False.elim
  | consumeSiteCloneEvent envelope =>
    exact (commit_writes fun _ _ h ↦ (consumeSiteCloneEvent_cases h).writes).mono id False.elim
  | claim dispatcher now leaseUntil locked workerId limit =>
    exact (Write.outboxMoved trivial _ _ (.claimed now leaseUntil workerId _ fun row _ hsel ↦
      claimRows_due (of_decide_eq_true hsel))).writes
  | complete record =>
    exact (Write.outboxMoved trivial _ _ (.delivered record)).writes
  | retry now leastBits record =>
    exact (Write.outboxMoved trivial _ _ (.returned record _)).writes
  | createWebsite => exact absurd rfl hrequest
  | archiveWebsite => exact absurd rfl hrequest
  | createScan => exact absurd rfl hrequest
  | cancelScan => exact absurd rfl hrequest
  | createSiteClone => exact absurd rfl hrequest
  | cancelSiteClone => exact absurd rfl hrequest

/-- What every write keeps holds after every run. -/
theorem after_invariant {P : WorkflowTables → Prop} (hinit : P {})
    (hwrite : ∀ {s s'}, Write env True True s s' → P s → P s') (actions : List WorkflowAction) :
    P (WorkflowTables.after env actions) :=
  run_invariant (fun s action h ↦ (step_writes s action).invariant hwrite h) hinit actions

end WebLens.ControlPlane
