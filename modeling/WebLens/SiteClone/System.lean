import WebLens.SiteClone.Store
import WebLens.Capture.System

/-!
# The site clone worker as a system of loops

Any number of ingestion, page, assembly, cancellation and collection loops share the database and
the object storage. A loop keeps every claim it was ever given, and may come back with it after any
pause. A step is one transaction or one operation of the storage, at the present instant and with
any arguments, except that a loop returns only what it was given, that it makes the steps of one
assembly in their order, and that the endpoint passes on valid commands only. A run is any sequence
of steps from the empty database, with any delays between them.
-/

set_option autoImplicit false
set_option relaxedAutoImplicit false

namespace WebLens.SiteClone

open Lib Lib.Utf8 Lib.Transaction
open Capture (Uuid Instant Duration given)

/-- What a worker has built and uploads: an archive shard or the manifest. -/
structure ArtifactPart where
  kind : ArtifactKind
  shardNumber : ℕ
  logicalFilename : String
  bucket : String
  bytes : ℕ
  sha256 : ByteString
  contentType : String
  deriving DecidableEq

/-- The artifact of a part, under its final key. -/
def ClaimedSitePhase.artifact (claim : ClaimedSitePhase) (part : ArtifactPart) :
    SiteArtifactInput where
  kind := part.kind
  shardNumber := part.shardNumber
  logicalFilename := part.logicalFilename
  object := {
    bucket := part.bucket
    key := .artifact claim.ownerId claim.id claim.leaseGeneration part.logicalFilename
    bytes := part.bytes
    sha256 := part.sha256
    contentType := part.contentType }

/-- An assembly: the claim of a worker and the parts that it has built. -/
structure Assembly where
  claim : ClaimedSitePhase
  parts : List ArtifactPart
  deriving DecidableEq

/-- The artifacts of an assembly. -/
def Assembly.artifacts (assembly : Assembly) : List SiteArtifactInput :=
  assembly.parts.map assembly.claim.artifact

/-- The final keys of an assembly. -/
def Assembly.keys (assembly : Assembly) : List StorageKey :=
  assembly.artifacts.map fun artifact ↦ artifact.object.key

/-- The key under which a worker uploads the bundle of a page. -/
def ClaimedSitePage.bundleKey (claim : ClaimedSitePage) : StorageKey :=
  .pageBundle claim.ownerId claim.jobId claim.pageId claim.leaseGeneration

/-- The object of the bundle that a worker uploads for a page. -/
def ClaimedSitePage.bundle (bucket : String) (bytes : ℕ) (sha256 : ByteString)
    (claim : ClaimedSitePage) : StoredObject where
  bucket := bucket
  key := claim.bundleKey
  bytes := bytes
  sha256 := sha256
  contentType := "application/json"

/-- The database, the object storage, and what the loops were given and have done. -/
structure System where
  now : Instant := 0
  store : Store := {}
  objects : List StorageKey := []
  phases : List ClaimedSitePhase := []
  pages : List ClaimedSitePage := []
  deletions : List ClaimedSiteObjectDeletion := []
  staged : List Assembly := []
  verified : List Assembly := []
  restaged : List Assembly := []

/-- A step with its arguments. -/
inductive Action
  | tick (duration : Duration)
  | acceptCommand (envelope : SiteCloneCommandEnvelope)
  | claimIngestion (locked : List Uuid) (workerId : Uuid)
  | extendPhaseLease (claim : ClaimedSitePhase)
  | addTargets (claim : ClaimedSitePhase) (targets : List SiteTargetInput)
  | finishIngestion (claim : ClaimedSitePhase)
  | claimPage (locks : PageLocks) (workerId : Uuid)
  | extendPageLease (claim : ClaimedSitePage)
  | putBundle (claim : ClaimedSitePage)
  | completePage (claim : ClaimedSitePage) (bucket : String) (bytes : ℕ) (sha256 : ByteString)
      (inputBytes : ℕ)
  | failPage (claim : ClaimedSitePage) (code : String)
  | claimAssembly (locks : AssemblyLocks) (workerId : Uuid)
  | stageArtifacts (assembly : Assembly)
  | copyArtifact (assembly : Assembly) (key : StorageKey)
  | verifyArtifacts (assembly : Assembly)
  | restageArtifacts (assembly : Assembly)
  | publishArtifacts (assembly : Assembly)
  | retryIngestion (claim : ClaimedSitePhase) (code : String)
  | retryAssembly (claim : ClaimedSitePhase) (code : String)
  | reconcileCancellations (locked : List Uuid)
  | claimObjectForDeletion (locks : DeletionLocks)
  | deleteObject (deletion : ClaimedSiteObjectDeletion)
  | completeObjectDeletion (deletion : ClaimedSiteObjectDeletion)
  | retryObjectDeletion (deletion : ClaimedSiteObjectDeletion)

/-- Whether a transaction has gone through. -/
def succeeds {α ε : Type} (result : Except ε α) : Bool :=
  match result with
  | .ok _ => true
  | .error _ => false

/-- The system after a transaction. -/
def System.commit {α : Type} (sys : System) (body : Tx α) : System :=
  { sys with store := (Transaction.commit body sys.store).2 }

/-- One step. A transaction that fails leaves the database as it was. -/
def System.step (env : Env) (sys : System) : Action → System
  | .tick duration => { sys with now := sys.now + duration }
  | .acceptCommand envelope =>
    if envelope.isValid then sys.commit (acceptCommand env sys.now envelope) else sys
  | .claimIngestion locked workerId =>
    let outcome := Transaction.commit (claimIngestion sys.now locked workerId) sys.store
    { sys with store := outcome.2, phases := given outcome.1 sys.phases }
  | .extendPhaseLease claim =>
    if claim ∈ sys.phases then sys.commit (extendPhaseLease sys.now claim) else sys
  | .addTargets claim targets =>
    if claim ∈ sys.phases then sys.commit (addTargets sys.now claim targets) else sys
  | .finishIngestion claim =>
    if claim ∈ sys.phases then sys.commit (finishIngestion sys.now claim) else sys
  | .claimPage locks workerId =>
    let outcome := Transaction.commit (claimPage sys.now locks workerId) sys.store
    { sys with store := outcome.2, pages := given outcome.1 sys.pages }
  | .extendPageLease claim =>
    if claim ∈ sys.pages then sys.commit (extendPageLease sys.now claim) else sys
  | .putBundle claim =>
    if claim ∈ sys.pages then
      { sys with objects := claim.bundleKey :: sys.objects }
    else sys
  | .completePage claim bucket bytes sha256 inputBytes =>
    if claim ∈ sys.pages then
      sys.commit (completePage sys.now claim (claim.bundle bucket bytes sha256) inputBytes)
    else sys
  | .failPage claim code =>
    if claim ∈ sys.pages then sys.commit (failPage sys.now claim (boundedCode env code)) else sys
  | .claimAssembly locks workerId =>
    let outcome := Transaction.commit (claimAssembly sys.now locks workerId) sys.store
    { sys with store := outcome.2, phases := given outcome.1 sys.phases }
  | .stageArtifacts assembly =>
    -- A worker builds the parts of a claim once.
    if assembly.claim ∈ sys.phases ∧
        ∀ other ∈ sys.staged, other.claim = assembly.claim → other = assembly then
      let outcome := Transaction.commit
        (stageArtifacts sys.now assembly.claim assembly.artifacts) sys.store
      { sys with
        store := outcome.2
        staged := if succeeds outcome.1 then assembly :: sys.staged else sys.staged }
    else sys
  | .copyArtifact assembly key =>
    if assembly ∈ sys.staged ∧ key ∈ assembly.keys then { sys with objects := key :: sys.objects }
    else sys
  | .verifyArtifacts assembly =>
    if assembly ∈ sys.staged ∧ ∀ key ∈ assembly.keys, key ∈ sys.objects then
      { sys with verified := assembly :: sys.verified }
    else sys
  | .restageArtifacts assembly =>
    if assembly ∈ sys.verified then
      let outcome := Transaction.commit
        (stageArtifacts sys.now assembly.claim assembly.artifacts) sys.store
      { sys with
        store := outcome.2
        restaged := if succeeds outcome.1 then assembly :: sys.restaged else sys.restaged }
    else sys
  | .publishArtifacts assembly =>
    if assembly ∈ sys.restaged then
      sys.commit (publishStaged sys.now assembly.claim assembly.artifacts)
    else sys
  | .retryIngestion claim code =>
    if claim ∈ sys.phases then
      sys.commit (retryPhase sys.now claim .ingesting (boundedCode env code))
    else sys
  | .retryAssembly claim code =>
    if claim ∈ sys.phases then
      sys.commit (retryPhase sys.now claim .assembling (boundedCode env code))
    else sys
  | .reconcileCancellations locked => sys.commit (reconcileCancellations sys.now locked)
  | .claimObjectForDeletion locks =>
    let outcome := Transaction.commit (claimObjectForDeletion sys.now locks) sys.store
    { sys with store := outcome.2, deletions := given outcome.1 sys.deletions }
  | .deleteObject deletion =>
    if deletion ∈ sys.deletions then
      { sys with objects := sys.objects.filter fun key ↦ decide (key ≠ deletion.object.key) }
    else sys
  | .completeObjectDeletion deletion =>
    if deletion ∈ sys.deletions then sys.commit (completeObjectDeletion sys.now deletion) else sys
  | .retryObjectDeletion deletion =>
    if deletion ∈ sys.deletions then sys.commit (retryObjectDeletion sys.now deletion) else sys

/-- The system after a sequence of steps from the empty database. -/
def System.after (env : Env) (actions : List Action) : System :=
  run (System.step env) {} actions

end WebLens.SiteClone
