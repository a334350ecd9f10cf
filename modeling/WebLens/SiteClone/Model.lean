import WebLens.Capture.Model

/-!
# The data model of site clones

The values that the site clone database, its worker loops and its messages exchange: commands,
targets, stored objects, and the progress events of the Control Plane contract. Identifiers,
instants and durations are those of the capture worker, which site clones are a part of.

A key of the object storage is kept by its parts; its text joins them with slashes.
-/

set_option autoImplicit false
set_option relaxedAutoImplicit false

namespace WebLens.SiteClone

open Lib.Utf8
open Capture (Uuid)

/-! ### Statuses -/

/-- The status of a site clone job; `partialArchive` is `PARTIAL`. -/
inductive JobStatus
  | ingesting
  | running
  | assembling
  | cancelRequested
  | published
  | partialArchive
  | failed
  | cancelled
  | expired
  deriving DecidableEq

/-- `status in ('PUBLISHED','PARTIAL','FAILED','CANCELLED','EXPIRED')`. -/
def JobStatus.isTerminal : JobStatus → Bool
  | .published | .partialArchive | .failed | .cancelled | .expired => true
  | .ingesting | .running | .assembling | .cancelRequested => false

/-- `status in ('PUBLISHED','PARTIAL')`. -/
def JobStatus.isPublished : JobStatus → Bool
  | .published | .partialArchive => true
  | _ => false

/-- `status in ('INGESTING','RUNNING','ASSEMBLING')`. -/
def JobStatus.isInProgress : JobStatus → Bool
  | .ingesting | .running | .assembling => true
  | _ => false

/-- The status of a page. -/
inductive PageStatus
  | queued
  | rendering
  | succeeded
  | failed
  | cancelled
  deriving DecidableEq

/-- `status in ('QUEUED','RENDERING')`. -/
def PageStatus.isActive : PageStatus → Bool
  | .queued | .rendering => true
  | .succeeded | .failed | .cancelled => false

/-- The state of the bundle of a page. -/
inductive BundleState
  | available
  | deletePending
  | deleted
  deriving DecidableEq

/-- The kind of an artifact. -/
inductive ArtifactKind
  | archiveShard
  | manifest
  deriving DecidableEq

/-- The state of an artifact. -/
inductive ArtifactState
  | staged
  | published
  | deletePending
  | deleted
  deriving DecidableEq

/-! ### Commands -/

/-- The limits that a command sets. -/
structure SiteClonePolicy where
  maxPages : ℕ
  maxInputBytes : ℕ
  maxArchiveBytes : ℕ
  maxShardBytes : ℕ
  pageConcurrency : ℕ
  maxRetriesPerPage : ℕ
  maxDurationSeconds : ℕ
  archiveRetentionDays : ℕ
  metadataRetentionDays : ℕ
  deriving DecidableEq

/-- The ranges that `parseSiteCloneEnvelope` and the checks of the table have for the limits. -/
def SiteClonePolicy.isValid (policy : SiteClonePolicy) : Bool :=
  decide (1 ≤ policy.maxPages ∧ policy.maxPages ≤ 100_000) &&
    decide (1 ≤ policy.maxInputBytes ∧ policy.maxInputBytes ≤ 214_748_364_800) &&
    decide (1 ≤ policy.maxArchiveBytes ∧ policy.maxArchiveBytes ≤ 53_687_091_200) &&
    decide (1_048_576 ≤ policy.maxShardBytes ∧ policy.maxShardBytes ≤ 2_147_483_648) &&
    decide (1 ≤ policy.pageConcurrency ∧ policy.pageConcurrency ≤ 32) &&
    decide (1 ≤ policy.maxRetriesPerPage ∧ policy.maxRetriesPerPage ≤ 3) &&
    decide (60 ≤ policy.maxDurationSeconds ∧ policy.maxDurationSeconds ≤ 604_800) &&
    decide (1 ≤ policy.archiveRetentionDays ∧ policy.archiveRetentionDays ≤ 30) &&
    decide (policy.archiveRetentionDays ≤ policy.metadataRetentionDays ∧
      policy.metadataRetentionDays ≤ 365)

/-- `SiteCloneCommandPayload`. -/
structure SiteCloneCommandPayload where
  siteCloneRequestId : Uuid
  ownerId : Uuid
  scanId : Uuid
  rootUrl : String
  policy : SiteClonePolicy
  deriving DecidableEq

/-- `SiteCloneRequestedEnvelope`. -/
structure SiteCloneRequestedEnvelope where
  messageId : Uuid
  aggregateId : Uuid
  aggregateVersion : ℕ
  correlationId : Uuid
  payload : SiteCloneCommandPayload
  deriving DecidableEq

/-- `SiteCloneCancelEnvelope`. -/
structure SiteCloneCancelEnvelope where
  messageId : Uuid
  aggregateId : Uuid
  aggregateVersion : ℕ
  correlationId : Uuid
  siteCloneRequestId : Uuid
  ownerId : Uuid
  deriving DecidableEq

/-- `SiteCloneCommandEnvelope`. -/
inductive SiteCloneCommandEnvelope
  | requested (envelope : SiteCloneRequestedEnvelope)
  | cancelRequested (envelope : SiteCloneCancelEnvelope)
  deriving DecidableEq

/-- `parseSiteCloneEnvelope`: whether the endpoint accepts the command. -/
def SiteCloneCommandEnvelope.isValid : SiteCloneCommandEnvelope → Bool
  | .requested envelope =>
    decide (envelope.payload.siteCloneRequestId = envelope.aggregateId) &&
      envelope.payload.policy.isValid
  | .cancelRequested envelope => decide (envelope.siteCloneRequestId = envelope.aggregateId)

/-! ### Objects -/

/-- A key of the object storage. -/
inductive StorageKey
  /-- `<owner>/site-clones/<job>/pages/<page>/<generation>.json`. -/
  | pageBundle (ownerId jobId pageId : Uuid) (generation : ℕ)
  /-- `<owner>/site-clones/<job>/artifacts/<generation>/<filename>`. -/
  | artifact (ownerId jobId : Uuid) (generation : ℕ) (filename : String)
  deriving DecidableEq

/-- `StoredObject`. -/
structure StoredObject where
  bucket : String
  key : StorageKey
  bytes : ℕ
  sha256 : ByteString
  contentType : String
  deriving DecidableEq

/-- `SiteArtifactInput`. -/
structure SiteArtifactInput where
  kind : ArtifactKind
  shardNumber : ℕ
  logicalFilename : String
  object : StoredObject
  deriving DecidableEq

/-! ### Targets -/

/-- `DesignRejectionReason`: why a page of the scan is not cloned. -/
inductive DesignRejectionReason
  | alternateLocale
  | trackingOrQueryVariant
  | canonicalDuplicate
  | semanticTemplateDuplicate
  | layoutDuplicate
  | nonHtml
  | externalOrigin
  | robotsOrPolicyBlocked
  | httpFailure
  | budgetLimited
  deriving DecidableEq

/-- The text of a reason. -/
def DesignRejectionReason.text : DesignRejectionReason → String
  | .alternateLocale => "ALTERNATE_LOCALE"
  | .trackingOrQueryVariant => "TRACKING_OR_QUERY_VARIANT"
  | .canonicalDuplicate => "CANONICAL_DUPLICATE"
  | .semanticTemplateDuplicate => "SEMANTIC_TEMPLATE_DUPLICATE"
  | .layoutDuplicate => "LAYOUT_DUPLICATE"
  | .nonHtml => "NON_HTML"
  | .externalOrigin => "EXTERNAL_ORIGIN"
  | .robotsOrPolicyBlocked => "ROBOTS_OR_POLICY_BLOCKED"
  | .httpFailure => "HTTP_FAILURE"
  | .budgetLimited => "BUDGET_LIMITED"

/-- The reason is never the code of a page that was cancelled later. -/
theorem DesignRejectionReason.text_ne (reason : DesignRejectionReason) :
    reason.text ≠ "CANCELLED" := by
  cases reason <;> decide

/-- `SiteTargetInput`: a page to clone, or one that ingestion rejects for a reason. -/
structure SiteTargetInput where
  pageId : Uuid
  ordinal : ℕ
  publicUrl : String
  urlSha256 : ByteString
  localPath : String
  rejection : Option DesignRejectionReason := none
  deriving DecidableEq

/-! ### Events -/

/-- The payload of a `SITE_CLONE_PROGRESS` event. -/
structure SiteCloneProgressPayload where
  siteCloneRequestId : Uuid
  ownerId : Uuid
  status : JobStatus
  discoveredCount : ℕ
  processedCount : ℕ
  succeededCount : ℕ
  failedCount : ℕ
  artifactCount : ℕ
  totalArchiveBytes : ℕ
  terminalCode : Option String
  terminalMessage : Option String
  deriving DecidableEq

/-- The envelope of a progress event. -/
structure SiteCloneEventEnvelope where
  messageId : Uuid
  aggregateType : String
  aggregateId : Uuid
  aggregateVersion : ℕ
  messageType : String
  contractVersion : ℕ
  correlationId : Uuid
  payload : SiteCloneProgressPayload
  deriving DecidableEq

/-! ### The environment -/

/-- The library functions that the database module calls. -/
structure Env where
  /-- `JSON.stringify` of a command. -/
  stringifyCommand : SiteCloneCommandEnvelope → ByteString
  /-- SHA-256. -/
  sha256 : ByteString → ByteString
  /-- `toUpperCase`, character by character. -/
  toUpperCase : Char → List Char

/-- `boundedCode`: a code of at most 64 capitals, digits and underscores. -/
def boundedCode (env : Env) (value : String) : String :=
  let code := ((value.toList.flatMap env.toUpperCase).map fun c ↦
    if ('A' ≤ c && c ≤ 'Z') || ('0' ≤ c && c ≤ '9') || c = '_' then c else '_').take 64
  if code.isEmpty then "SITE_CLONE_FAILED" else String.ofList code

end WebLens.SiteClone
