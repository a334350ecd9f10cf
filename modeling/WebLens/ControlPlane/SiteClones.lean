import Mathlib.Data.List.DropRight
import WebLens.ControlPlane.Captures
import WebLens.SiteClone.Model

/-!
# Site clone requests of the Control Plane

The rows of site clone requests and their projection of the progress events of the site clone
worker: what `SiteCloneRequestEntity.applyRemote` makes of an event.
-/

set_option autoImplicit false
set_option relaxedAutoImplicit false

namespace WebLens.ControlPlane

open Capture (Uuid)
open SiteClone (JobStatus SiteCloneEventEnvelope)

/-! ### Java texts -/

/-- `String.strip`. -/
def strip (text : String) : String :=
  String.ofList ((text.toList.dropWhile isWhitespace).rdropWhile isWhitespace)

/-- The characters that fit into a number of UTF-16 code units. -/
def cutUtf16 : ℕ → List Char → List Char
  | _, [] => []
  | units, char :: rest =>
    let width := if char.val < 0x10000 then 1 else 2
    if width ≤ units then char :: cutUtf16 (units - width) rest else []

/-- `SiteCloneRequestEntity.bounded`. -/
def boundedText (value : Option String) (maximum : ℕ) : String :=
  String.ofList (cutUtf16 maximum ((value.map strip).getD "SITE_CLONE_FAILED").toList)

/-- `SiteCloneRequestEntity.emptyToNull`. -/
def boundedOrNull (value : Option String) (maximum : ℕ) : Option String :=
  match value with
  | none => none
  | some text => if isBlank text then none else some (boundedText (some text) maximum)

/-! ### Site clone requests -/

inductive SiteCloneStatus
  | waitingForScan
  | queued
  | dispatched
  | running
  | assembling
  | cancelRequested
  | published
  | partialArchive
  | failed
  | cancelled
  | expired
  deriving DecidableEq

/-- `SiteCloneStatus.isTerminal`. -/
def SiteCloneStatus.isTerminal : SiteCloneStatus → Bool
  | .published | .partialArchive | .failed | .cancelled | .expired => true
  | .waitingForScan | .queued | .dispatched | .running | .assembling | .cancelRequested => false

/-- `SiteCloneStatus.valueOf`. -/
def SiteCloneStatus.valueOf : String → Option SiteCloneStatus
  | "WAITING_FOR_SCAN" => some .waitingForScan
  | "QUEUED" => some .queued
  | "DISPATCHED" => some .dispatched
  | "RUNNING" => some .running
  | "ASSEMBLING" => some .assembling
  | "CANCEL_REQUESTED" => some .cancelRequested
  | "PUBLISHED" => some .published
  | "PARTIAL" => some .partialArchive
  | "FAILED" => some .failed
  | "CANCELLED" => some .cancelled
  | "EXPIRED" => some .expired
  | _ => none

/-- The text of a job status in an event. -/
def jobStatusText : JobStatus → String
  | .ingesting => "INGESTING"
  | .running => "RUNNING"
  | .assembling => "ASSEMBLING"
  | .cancelRequested => "CANCEL_REQUESTED"
  | .published => "PUBLISHED"
  | .partialArchive => "PARTIAL"
  | .failed => "FAILED"
  | .cancelled => "CANCELLED"
  | .expired => "EXPIRED"

/-- A row of `site_clone_requests`, without its timestamps. -/
structure SiteCloneRequest where
  id : Uuid
  ownerId : Uuid
  websiteId : Uuid
  scanId : Uuid
  status : SiteCloneStatus := .waitingForScan
  targetUrl : String
  idempotencyKeyHash : String
  requestFingerprintHash : String
  remoteJobVersion : ℤ := 0
  discoveredCount : ℤ := 0
  processedCount : ℤ := 0
  succeededCount : ℤ := 0
  failedCount : ℤ := 0
  artifactCount : ℤ := 0
  totalArchiveBytes : ℤ := 0
  terminalCode : Option String := none
  terminalMessage : Option String := none
  deriving DecidableEq

/-- How an event is rejected: an illegal argument. -/
inductive SiteCloneError
  | siteCloneEventRejected
  deriving DecidableEq

/-- The checks that `applyRemote` makes of the counters. -/
def countersConsistent (discovered processed succeeded failed artifacts archiveBytes : ℤ) : Bool :=
  decide (0 ≤ discovered ∧ discovered ≤ 100_000) &&
    decide (0 ≤ processed ∧ processed ≤ discovered) &&
    decide (0 ≤ succeeded ∧ 0 ≤ failed ∧ succeeded + failed = processed) &&
    decide (0 ≤ artifacts ∧ artifacts ≤ 100_000) &&
    decide (0 ≤ archiveBytes ∧ archiveBytes ≤ 53_687_091_200)

/-- The part of `applyRemote` that changes the entity. -/
def SiteCloneRequest.project (request : SiteCloneRequest) (next : SiteCloneStatus)
    (event : SiteCloneEventEnvelope) : SiteCloneRequest :=
  { request with
    status := next
    terminalCode :=
      if next.isTerminal then boundedOrNull event.payload.terminalCode 64
      else request.terminalCode
    terminalMessage :=
      if next.isTerminal then boundedOrNull event.payload.terminalMessage 500
      else request.terminalMessage
    discoveredCount := event.payload.discoveredCount
    processedCount := event.payload.processedCount
    succeededCount := event.payload.succeededCount
    failedCount := event.payload.failedCount
    artifactCount := event.payload.artifactCount
    totalArchiveBytes := event.payload.totalArchiveBytes
    remoteJobVersion := event.aggregateVersion }

/-- `SiteCloneRequestEntity.applyRemote`, with the arguments that the event service passes: the
entity if it changed, or an illegal argument. -/
def SiteCloneRequest.applyRemote (request : SiteCloneRequest) (event : SiteCloneEventEnvelope) :
    Except SiteCloneError (Option SiteCloneRequest) :=
  if (event.aggregateVersion : ℤ) ≤ request.remoteJobVersion ∨ request.status.isTerminal = true then
    .ok none
  else match SiteCloneStatus.valueOf (jobStatusText event.payload.status).toUpper with
    | none => .error .siteCloneEventRejected
    | some next =>
      if countersConsistent event.payload.discoveredCount event.payload.processedCount
          event.payload.succeededCount event.payload.failedCount event.payload.artifactCount
          event.payload.totalArchiveBytes = false then
        .error .siteCloneEventRejected
      else if request.status = .cancelRequested ∧ next ≠ .cancelled ∧ next.isTerminal = false then
        .ok none
      else .ok (some (request.project next event))

/-- The request after an event has come: a rejected one changes nothing. -/
def SiteCloneRequest.receive (request : SiteCloneRequest) (event : SiteCloneEventEnvelope) :
    SiteCloneRequest :=
  match request.applyRemote event with
  | .ok (some next) => next
  | _ => request

/-- The request after some events have come, one after the other. -/
def SiteCloneRequest.receiveAll (request : SiteCloneRequest)
    (events : List SiteCloneEventEnvelope) : SiteCloneRequest :=
  events.foldl SiteCloneRequest.receive request

/-- An event leaves the request as it is, or projects it to the status of the event. -/
theorem SiteCloneRequest.receive_cases (request : SiteCloneRequest)
    (event : SiteCloneEventEnvelope) :
    request.receive event = request ∨
      ∃ next, request.status.isTerminal = false ∧
        SiteCloneStatus.valueOf (jobStatusText event.payload.status).toUpper = some next ∧
        request.receive event = request.project next event := by
  unfold receive applyRemote
  by_cases hstale : (event.aggregateVersion : ℤ) ≤ request.remoteJobVersion ∨
      request.status.isTerminal = true
  · rw [if_pos hstale]
    exact .inl rfl
  rw [if_neg hstale]
  cases hnext : SiteCloneStatus.valueOf (jobStatusText event.payload.status).toUpper with
  | none => exact .inl rfl
  | some next =>
    by_cases hcounters : countersConsistent event.payload.discoveredCount
        event.payload.processedCount event.payload.succeededCount event.payload.failedCount
        event.payload.artifactCount event.payload.totalArchiveBytes = false
    · simp only [if_pos hcounters]
      exact .inl trivial
    simp only [if_neg hcounters]
    by_cases hcancelling : request.status = .cancelRequested ∧ next ≠ .cancelled ∧
        next.isTerminal = false
    · simp only [if_pos hcancelling]
      exact .inl trivial
    · simp only [if_neg hcancelling]
      exact .inr ⟨next, Bool.eq_false_iff.2 fun h ↦ hstale (.inr h), rfl, rfl⟩

/-- A request that has ended carries a terminal code. -/
def SiteCloneRequest.Explained (request : SiteCloneRequest) : Prop :=
  request.status.isTerminal = true → request.terminalCode ≠ none

theorem boundedOrNull_ne_none {code : String} (h : isBlank code = false) (maximum : ℕ) :
    boundedOrNull (some code) maximum ≠ none := by
  unfold boundedOrNull
  simp only [h, Bool.false_eq_true, if_false, ne_eq, reduceCtorEq, not_false_eq_true]

/-- Events that all carry a terminal code explain the end of the request. -/
theorem SiteCloneRequest.Explained.receiveAll {request : SiteCloneRequest}
    {events : List SiteCloneEventEnvelope} (h : request.Explained)
    (hevents : ∀ event ∈ events, ∃ code, event.payload.terminalCode = some code ∧
      isBlank code = false) : (request.receiveAll events).Explained := by
  induction events generalizing request with
  | nil => exact h
  | cons event events ih =>
    refine ih ?_ fun other hother ↦ hevents other (List.mem_cons_of_mem _ hother)
    rcases request.receive_cases event with hsame | ⟨next, -, -, hnext⟩
    · rwa [hsame]
    · obtain ⟨code, hcode, hblank⟩ := hevents event List.mem_cons_self
      intro hterminal
      rw [hnext] at hterminal ⊢
      have hend : next.isTerminal = true := hterminal
      unfold SiteCloneRequest.project
      simp only [if_pos hend, hcode]
      exact boundedOrNull_ne_none hblank 64

end WebLens.ControlPlane
