import WebLens.ControlPlane.Captures
import WebLens.Crawler.Model

/-!
# Scans of the Control Plane

The rows of `scans`: the transitions between their statuses, the cancellation by a user, and the
projection of what the crawler reports. A progress and a projection carry the conditions that their
constructors check, so what is projected keeps the checks of the table.
-/

set_option autoImplicit false
set_option relaxedAutoImplicit false

namespace WebLens.ControlPlane

open Lib Lib.Utf8
open Capture (Uuid)

/-! ### Statuses -/

inductive ScanStatus
  | queued
  | running
  | cancelRequested
  | completed
  | partialSuccess
  | failed
  | cancelled
  deriving DecidableEq

/-- `ScanStatus.isTerminal`. -/
def ScanStatus.isTerminal : ScanStatus → Bool
  | .completed | .partialSuccess | .failed | .cancelled => true
  | .queued | .running | .cancelRequested => false

/-- `ScanStatus.isActive`. -/
def ScanStatus.isActive (status : ScanStatus) : Bool :=
  [.queued, .running, .cancelRequested].contains status

/-- `ScanStatus.valueOf`. -/
def ScanStatus.valueOf : String → Option ScanStatus
  | "QUEUED" => some .queued
  | "RUNNING" => some .running
  | "CANCEL_REQUESTED" => some .cancelRequested
  | "COMPLETED" => some .completed
  | "PARTIAL_SUCCESS" => some .partialSuccess
  | "FAILED" => some .failed
  | "CANCELLED" => some .cancelled
  | _ => none

/-- `ScanStateMachine.ALLOWED`. -/
def ScanStatus.allowed : ScanStatus → List ScanStatus
  | .queued => [.running, .cancelRequested, .completed, .partialSuccess, .cancelled, .failed]
  | .running => [.cancelRequested, .completed, .partialSuccess, .failed, .cancelled]
  | .cancelRequested => [.completed, .partialSuccess, .cancelled, .failed]
  | .completed | .partialSuccess | .failed | .cancelled => []

/-- The statuses that some transitions lead to. -/
def ScanStatus.Leads (status next : ScanStatus) : Prop :=
  next = status ∨ next ∈ status.allowed

theorem ScanStatus.isActive_eq (status : ScanStatus) : status.isActive = !status.isTerminal := by
  cases status <;> rfl

theorem ScanStatus.allowed_of_terminal {status : ScanStatus} (h : status.isTerminal = true) :
    status.allowed = [] := by
  cases status with
  | completed => rfl
  | partialSuccess => rfl
  | failed => rfl
  | cancelled => rfl
  | queued => exact absurd h Bool.false_ne_true
  | running => exact absurd h Bool.false_ne_true
  | cancelRequested => exact absurd h Bool.false_ne_true

/-- Every transition ends a scan that is not terminal. -/
theorem ScanStatus.terminal_mem_allowed {status next : ScanStatus}
    (h : status.isTerminal = false) (hnext : next.isTerminal = true) : next ∈ status.allowed := by
  revert h hnext
  cases status <;> cases next <;> decide

theorem ScanStatus.Leads.eq_of_terminal {status next : ScanStatus} (h : status.Leads next)
    (hterminal : status.isTerminal = true) : next = status := by
  rcases h with rfl | hmem
  · rfl
  · rw [ScanStatus.allowed_of_terminal hterminal] at hmem
    exact absurd hmem List.not_mem_nil

theorem ScanStatus.Leads.trans {first middle last : ScanStatus} (h : first.Leads middle)
    (h' : middle.Leads last) : first.Leads last := by
  revert h h'
  unfold ScanStatus.Leads
  cases first <;> cases middle <;> cases last <;> decide

/-! ### Progress and projections -/

/-- `ScanProgress`, with what its constructor checks. -/
structure ScanProgress where
  discovered : ℤ
  queued : ℤ
  processed : ℤ
  succeeded : ℤ
  failed : ℤ
  limit : ℤ
  nonneg : 0 ≤ discovered ∧ 0 ≤ queued ∧ 0 ≤ processed ∧ 0 ≤ succeeded ∧ 0 ≤ failed ∧ 1 ≤ limit
  limited : discovered ≤ limit ∧ queued ≤ limit ∧ processed ≤ limit
  bounded : queued ≤ discovered ∧ processed ≤ discovered
  total : processed = succeeded + failed

/-- `new ScanProgress`; nothing is an illegal argument. -/
def ScanProgress.of (discovered queued processed succeeded failed limit : ℤ) :
    Option ScanProgress :=
  if nonneg : 0 ≤ discovered ∧ 0 ≤ queued ∧ 0 ≤ processed ∧ 0 ≤ succeeded ∧ 0 ≤ failed ∧
      1 ≤ limit then
    if limited : discovered ≤ limit ∧ queued ≤ limit ∧ processed ≤ limit then
      if bounded : queued ≤ discovered ∧ processed ≤ discovered then
        if total : processed = succeeded + failed then
          some ⟨discovered, queued, processed, succeeded, failed, limit, nonneg, limited, bounded,
            total⟩
        else none
      else none
    else none
  else none

/-- `RemoteScanProjection`, with what its constructor checks. -/
structure RemoteScanProjection where
  remoteVersion : ℤ
  status : ScanStatus
  progress : ScanProgress
  analyticsExpectedCount : ℤ
  analyticsPublishedCount : ℤ
  terminalCode : Option String
  terminalMessage : Option String
  version_nonneg : 0 ≤ remoteVersion
  analytics : 0 ≤ analyticsExpectedCount ∧ 0 ≤ analyticsPublishedCount ∧
    analyticsPublishedCount ≤ analyticsExpectedCount ∧ analyticsExpectedCount ≤ progress.discovered
  code : status.isTerminal = true → (terminalCode.any isBlank) = false

/-- `new RemoteScanProjection`; nothing is an illegal argument. -/
def RemoteScanProjection.of (remoteVersion : ℤ) (status : ScanStatus) (progress : ScanProgress)
    (analyticsExpectedCount analyticsPublishedCount : ℤ)
    (terminalCode terminalMessage : Option String) : Option RemoteScanProjection :=
  if version_nonneg : 0 ≤ remoteVersion then
    if analytics : 0 ≤ analyticsExpectedCount ∧ 0 ≤ analyticsPublishedCount ∧
        analyticsPublishedCount ≤ analyticsExpectedCount ∧
        analyticsExpectedCount ≤ progress.discovered then
      if code : status.isTerminal = true → (terminalCode.any isBlank) = false then
        some ⟨remoteVersion, status, progress, analyticsExpectedCount, analyticsPublishedCount,
          terminalCode, terminalMessage, version_nonneg, analytics, code⟩
      else none
    else none
  else none

theorem ScanProgress.of_eq_some {discovered queued processed succeeded failed limit : ℤ}
    {progress : ScanProgress}
    (h : ScanProgress.of discovered queued processed succeeded failed limit = some progress) :
    progress.discovered = discovered ∧ progress.queued = queued ∧
      progress.processed = processed ∧ progress.succeeded = succeeded ∧
      progress.failed = failed ∧ progress.limit = limit := by
  unfold ScanProgress.of at h
  split_ifs at h
  rw [← Option.some.inj h]
  exact ⟨rfl, rfl, rfl, rfl, rfl, rfl⟩

theorem RemoteScanProjection.of_eq_some {remoteVersion : ℤ} {status : ScanStatus}
    {progress : ScanProgress} {expected published : ℤ} {code message : Option String}
    {projection : RemoteScanProjection}
    (h : RemoteScanProjection.of remoteVersion status progress expected published code message =
      some projection) :
    projection.remoteVersion = remoteVersion ∧ projection.status = status ∧
      projection.progress = progress ∧ projection.analyticsExpectedCount = expected ∧
      projection.analyticsPublishedCount = published ∧ projection.terminalCode = code ∧
      projection.terminalMessage = message := by
  unfold RemoteScanProjection.of at h
  split_ifs at h
  rw [← Option.some.inj h]
  exact ⟨rfl, rfl, rfl, rfl, rfl, rfl, rfl⟩

/-! ### Scans -/

/-- `ScanConfiguration`, with what its constructor checks. -/
structure ScanConfiguration where
  maxPages : ℤ
  maxDepth : ℤ
  maxResponseBytes : ℤ
  maxDurationSeconds : ℤ
  maxRedirects : ℤ
  concurrency : ℤ
  pages : 1 ≤ maxPages ∧ maxPages ≤ 1_000_000
  depth : 0 ≤ maxDepth ∧ maxDepth ≤ 10
  responseBytes : 1_024 ≤ maxResponseBytes ∧ maxResponseBytes ≤ 52_428_800
  duration : 1 ≤ maxDurationSeconds ∧ maxDurationSeconds ≤ 604_800
  redirects : 0 ≤ maxRedirects ∧ maxRedirects ≤ 10
  workers : 1 ≤ concurrency ∧ concurrency ≤ 10_000

/-- A row of `scans`, without its timestamps. -/
structure Scan where
  id : Uuid
  websiteId : Uuid
  requestedByUserId : Uuid
  status : ScanStatus := .queued
  discoveredCount : ℤ := 0
  queuedCount : ℤ := 0
  processedCount : ℤ := 0
  succeededCount : ℤ := 0
  failedCount : ℤ := 0
  maxPages : ℤ
  maxDepth : ℤ
  maxResponseBytes : ℤ
  maxDurationSeconds : ℤ
  maxRedirects : ℤ
  concurrency : ℤ
  collectorVersion : String
  terminalCode : Option String := none
  terminalMessage : Option String := none
  idempotencyKeyHash : Option String
  requestFingerprintHash : Option String
  analyticsStatus : AnalyticsStatus := .pending
  analyticsExpectedCount : ℤ := 0
  analyticsPublishedCount : ℤ := 0
  remoteExecutionVersion : ℤ := 0
  version : ℤ := 0
  deriving DecidableEq

/-- `new ScanEntity`. -/
def newScan (id websiteId userId : Uuid) (limits : ScanConfiguration) (collectorVersion : String)
    (keyHash fingerprint : Option String) : Scan where
  id := id
  websiteId := websiteId
  requestedByUserId := userId
  maxPages := limits.maxPages
  maxDepth := limits.maxDepth
  maxResponseBytes := limits.maxResponseBytes
  maxDurationSeconds := limits.maxDurationSeconds
  maxRedirects := limits.maxRedirects
  concurrency := limits.concurrency
  collectorVersion := collectorVersion
  idempotencyKeyHash := keyHash
  requestFingerprintHash := fingerprint

/-- How an operation of the entity fails. -/
inductive ScanError
  | notCancellable
  | illegalArgument
  | invalidTransition
  deriving DecidableEq

/-- `ScanEntity.transitionTo`. -/
def Scan.transitionTo (scan : Scan) (next : ScanStatus) : Except ScanError Scan :=
  if next ∈ scan.status.allowed then .ok { scan with status := next }
  else .error .invalidTransition

/-- `ScanEntity.requestCancellation`: the entity, if it changed. -/
def Scan.requestCancellation (scan : Scan) : Except ScanError (Option Scan) :=
  if scan.status = .cancelRequested ∨ scan.status = .cancelled then .ok none
  else if scan.status = .queued ∨ scan.status = .running then
    (scan.transitionTo .cancelRequested).map some
  else .error .notCancellable

/-- The part of `applyRemoteProjection` that copies the projection. -/
def Scan.project (scan : Scan) (projection : RemoteScanProjection) : Scan :=
  { scan with
    discoveredCount := projection.progress.discovered
    queuedCount := projection.progress.queued
    processedCount := projection.progress.processed
    succeededCount := projection.progress.succeeded
    failedCount := projection.progress.failed
    analyticsExpectedCount := projection.analyticsExpectedCount
    analyticsPublishedCount := projection.analyticsPublishedCount
    analyticsStatus :=
      if projection.analyticsExpectedCount = projection.analyticsPublishedCount ∧
        projection.status.isTerminal = true then .ready
      else if projection.analyticsExpectedCount > projection.analyticsPublishedCount then .indexing
      else .pending
    terminalCode :=
      if projection.status.isTerminal then projection.terminalCode else scan.terminalCode
    terminalMessage :=
      if projection.status.isTerminal then projection.terminalMessage else scan.terminalMessage
    remoteExecutionVersion := projection.remoteVersion }

/-- `ScanEntity.applyRemoteProjection`: the entity, if it changed. -/
def Scan.applyRemoteProjection (scan : Scan) (projection : RemoteScanProjection) :
    Except ScanError (Option Scan) :=
  if projection.remoteVersion ≤ scan.remoteExecutionVersion ∨ scan.status.isTerminal = true then
    .ok none
  else if projection.status = .queued then
    .ok (some { scan with remoteExecutionVersion := projection.remoteVersion })
  else if scan.status = .queued ∧ projection.status ≠ .running ∧
      projection.status.isTerminal = false then
    .error .illegalArgument
  else if projection.status = .running ∧ scan.status = .queued then
    (scan.transitionTo .running).map fun scan ↦ some (scan.project projection)
  else if projection.status = .cancelRequested ∧ scan.status = .running then
    (scan.transitionTo .cancelRequested).map fun scan ↦ some (scan.project projection)
  else if projection.status = scan.status then .ok (some (scan.project projection))
  else if projection.status.isTerminal then
    (scan.transitionTo projection.status).map fun scan ↦ some (scan.project projection)
  else if scan.status ≠ .cancelRequested then .error .illegalArgument
  else .ok (some (scan.project projection))

/-! ### What the operations do -/

theorem Scan.transitionTo_of_mem {scan : Scan} {next : ScanStatus}
    (h : next ∈ scan.status.allowed) : scan.transitionTo next = .ok { scan with status := next } :=
  if_pos h

/-- A request for cancellation changes a queued or running scan and nothing else. -/
theorem Scan.requestCancellation_cases (scan : Scan) :
    (scan.status = .queued ∨ scan.status = .running) ∧
        scan.requestCancellation = .ok (some { scan with status := .cancelRequested }) ∨
      (scan.status = .cancelRequested ∨ scan.status = .cancelled) ∧
        scan.requestCancellation = .ok none ∨
      scan.status.isTerminal = true ∧ scan.requestCancellation = .error .notCancellable := by
  unfold requestCancellation
  by_cases hdone : scan.status = .cancelRequested ∨ scan.status = .cancelled
  · exact .inr (.inl ⟨hdone, if_pos hdone⟩)
  rw [if_neg hdone]
  by_cases hactive : scan.status = .queued ∨ scan.status = .running
  · refine .inl ⟨hactive, ?_⟩
    rw [if_pos hactive, Scan.transitionTo_of_mem]
    · rfl
    · rcases hactive with h | h
      · rw [h]
        decide
      · rw [h]
        decide
  · refine .inr (.inr ⟨?_, if_neg hactive⟩)
    rw [not_or] at hdone hactive
    revert hdone hactive
    cases scan.status <;> decide

/-- A projection that is applied is newer than the last, the scan was not terminal, and either only
the version moves or the counters are copied and the status follows a transition. -/
theorem Scan.applyRemoteProjection_some {scan next : Scan} {projection : RemoteScanProjection}
    (h : scan.applyRemoteProjection projection = .ok (some next)) :
    scan.remoteExecutionVersion < projection.remoteVersion ∧ scan.status.isTerminal = false ∧
      (projection.status = .queued ∧
          next = { scan with remoteExecutionVersion := projection.remoteVersion } ∨
        projection.status ≠ .queued ∧ scan.status.Leads next.status ∧
          (projection.status = next.status ∨
            projection.status = .running ∧ next.status = .cancelRequested) ∧
          next = Scan.project { scan with status := next.status } projection) := by
  unfold applyRemoteProjection at h
  by_cases hstale : projection.remoteVersion ≤ scan.remoteExecutionVersion ∨
      scan.status.isTerminal = true
  · rw [if_pos hstale] at h
    exact absurd (Except.ok.inj h).symm (Option.some_ne_none _)
  rw [if_neg hstale] at h
  rw [not_or, not_le, Bool.not_eq_true] at hstale
  refine ⟨hstale.1, hstale.2, ?_⟩
  by_cases hqueued : projection.status = .queued
  · rw [if_pos hqueued] at h
    exact .inl ⟨hqueued, (Option.some.inj (Except.ok.inj h)).symm⟩
  rw [if_neg hqueued] at h
  refine .inr ⟨hqueued, ?_⟩
  have hmoved : ∀ status : ScanStatus, (scan.transitionTo status).map
      (fun scan ↦ some (scan.project projection)) = .ok (some next) →
      scan.status.Leads next.status ∧ next.status = status ∧
        next = Scan.project { scan with status := next.status } projection := by
    intro status hmap
    unfold transitionTo at hmap
    split_ifs at hmap with hallowed
    · have hnext := Option.some.inj (Except.ok.inj hmap)
      rw [← hnext]
      exact ⟨.inr hallowed, rfl, rfl⟩
    · exact absurd hmap (by simp [Except.map])
  split_ifs at h with hskip hstarted hcancelling hsame hterminal hrefused
  · obtain ⟨hleads, hstatus, hnext⟩ := hmoved _ h
    exact ⟨hleads, .inl (hstarted.1.trans hstatus.symm), hnext⟩
  · obtain ⟨hleads, hstatus, hnext⟩ := hmoved _ h
    exact ⟨hleads, .inl (hcancelling.1.trans hstatus.symm), hnext⟩
  · rw [← Option.some.inj (Except.ok.inj h)]
    exact ⟨.inl rfl, .inl hsame, rfl⟩
  · obtain ⟨hleads, hstatus, hnext⟩ := hmoved _ h
    exact ⟨hleads, .inl hstatus.symm, hnext⟩
  · rw [not_not] at hrefused
    rw [← Option.some.inj (Except.ok.inj h)]
    refine ⟨.inl rfl, .inr ⟨?_, hrefused⟩, rfl⟩
    rw [hrefused] at hsame
    revert hqueued hsame hterminal
    cases projection.status <;> decide

/-- A projection is refused only when the crawler says that a scan is being cancelled which no user
has asked to cancel. -/
theorem Scan.applyRemoteProjection_error {scan : Scan} {projection : RemoteScanProjection}
    {error : ScanError} (h : scan.applyRemoteProjection projection = .error error) :
    error = .illegalArgument ∧ projection.status = .cancelRequested ∧ scan.status = .queued := by
  unfold applyRemoteProjection at h
  by_cases hstale : projection.remoteVersion ≤ scan.remoteExecutionVersion ∨
      scan.status.isTerminal = true
  · rw [if_pos hstale] at h
    cases h
  rw [if_neg hstale] at h
  rw [not_or, Bool.not_eq_true] at hstale
  by_cases hqueued : projection.status = .queued
  · rw [if_pos hqueued] at h
    cases h
  rw [if_neg hqueued] at h
  by_cases hskip : scan.status = .queued ∧ projection.status ≠ .running ∧
      projection.status.isTerminal = false
  · rw [if_pos hskip] at h
    refine ⟨(Except.error.inj h).symm, ?_, hskip.1⟩
    obtain ⟨-, hrunning, hterminal⟩ := hskip
    revert hqueued hrunning hterminal
    cases projection.status <;> decide
  rw [if_neg hskip] at h
  by_cases hstarted : projection.status = .running ∧ scan.status = .queued
  · rw [if_pos hstarted, Scan.transitionTo_of_mem (by rw [hstarted.2]; decide)] at h
    cases h
  rw [if_neg hstarted] at h
  by_cases hcancelling : projection.status = .cancelRequested ∧ scan.status = .running
  · rw [if_pos hcancelling, Scan.transitionTo_of_mem (by rw [hcancelling.2]; decide)] at h
    cases h
  rw [if_neg hcancelling] at h
  by_cases hsame : projection.status = scan.status
  · rw [if_pos hsame] at h
    cases h
  rw [if_neg hsame] at h
  by_cases hterminal : projection.status.isTerminal = true
  · rw [if_pos hterminal,
      Scan.transitionTo_of_mem (ScanStatus.terminal_mem_allowed hstale.2 hterminal)] at h
    cases h
  rw [if_neg hterminal] at h
  exfalso
  split_ifs at h with hrefused
  · have hactive := hstale.2
    revert hqueued hskip hstarted hcancelling hsame hterminal hrefused hactive
    cases projection.status <;> cases scan.status <;> decide

/-- A projection is left out only when it is not newer than the last, or the scan is terminal. -/
theorem Scan.applyRemoteProjection_none {scan : Scan} {projection : RemoteScanProjection}
    (h : scan.applyRemoteProjection projection = .ok none) :
    projection.remoteVersion ≤ scan.remoteExecutionVersion ∨ scan.status.isTerminal = true := by
  by_contra hstale
  have hmoved : ∀ status : ScanStatus, (scan.transitionTo status).map
      (fun scan ↦ some (scan.project projection)) ≠ .ok none := by
    intro status
    unfold transitionTo
    split_ifs <;> exact nofun
  unfold applyRemoteProjection at h
  rw [if_neg hstale] at h
  split_ifs at h
  all_goals first
    | exact hmoved _ h
    | cases h

end WebLens.ControlPlane
