import WebLens.Capture.Store
import WebLens.Lib.Run

/-!
# The capture worker as a system of loops

Any number of job, analytics, event and garbage-collection loops share the database. A loop keeps
every claim it was ever given, and may come back with it after any pause. A step is one
transaction with any arguments, except that a loop returns only what it was given and that the
endpoint passes on valid commands only. A run is any sequence of steps from the empty database.
-/

set_option autoImplicit false
set_option relaxedAutoImplicit false

namespace WebLens.Capture

open Lib Lib.Transaction

/-- The database, and what its loops were given. -/
structure System where
  store : Store := {}
  claims : List ClaimedJob := []
  outboxes : List ClaimedOutbox := []
  events : List ClaimedEvent := []
  deletions : List ClaimedReconstructionArtifact := []

/-- A transaction with its arguments. -/
inductive Action
  | acceptCommand (now : Instant) (envelope : CaptureCommandEnvelope)
  | claimJob (now : Instant) (locks : ClaimLocks) (workerId : Uuid)
  | extendLease (now : Instant) (claim : ClaimedJob)
  | stageReconstructionArtifacts (now : Instant) (claim : ClaimedJob)
      (objects : ReconstructionObjects)
  | stageResult (now : Instant) (claim : ClaimedJob) (staging : Staging)
  | failJob (now : Instant) (claim : ClaimedJob) (error : String)
  | claimAnalytics (now : Instant) (locked : List Uuid) (workerId : Uuid)
  | completeAnalytics (now : Instant) (outbox : ClaimedOutbox)
  | retryAnalytics (now : Instant) (outbox : ClaimedOutbox)
  | claimEvent (now : Instant) (locked : List Uuid) (workerId : Uuid)
  | completeEvent (event : ClaimedEvent)
  | retryEvent (now : Instant) (event : ClaimedEvent)
  | claimReconstructionArtifactForDeletion (now : Instant) (locked : List Uuid)
  | completeReconstructionArtifactDeletion (claimed : ClaimedReconstructionArtifact)
  | retryReconstructionArtifactDeletion (now : Instant) (claimed : ClaimedReconstructionArtifact)

/-- The claims after a transaction that may give one. -/
def given {α ε : Type} (result : Except ε (Option α)) (held : List α) : List α :=
  match result with
  | .ok (some a) => a :: held
  | _ => held

/-- One transaction. A transaction that fails leaves the database as it was. -/
def System.step (env : Env) (sys : System) : Action → System
  | .acceptCommand now envelope =>
    if envelope.isValid then
      { sys with store := (commit (acceptCommand env now envelope) sys.store).2 }
    else sys
  | .claimJob now locks workerId =>
    let outcome := commit (claimJob now locks workerId) sys.store
    { sys with store := outcome.2, claims := given outcome.1 sys.claims }
  | .extendLease now claim =>
    if claim ∈ sys.claims then
      { sys with store := (commit (extendLease now claim) sys.store).2 }
    else sys
  | .stageReconstructionArtifacts now claim objects =>
    if claim ∈ sys.claims then
      { sys with store := (commit (stageReconstructionArtifacts now claim objects) sys.store).2 }
    else sys
  | .stageResult now claim staging =>
    if claim ∈ sys.claims then
      { sys with store := (commit (stageResult env now claim staging) sys.store).2 }
    else sys
  | .failJob now claim error =>
    if claim ∈ sys.claims then
      { sys with store := (commit (failJob now claim (boundedErrorCode env error)) sys.store).2 }
    else sys
  | .claimAnalytics now locked workerId =>
    let outcome := commit (claimAnalytics now locked workerId) sys.store
    { sys with store := outcome.2, outboxes := given outcome.1 sys.outboxes }
  | .completeAnalytics now outbox =>
    if outbox ∈ sys.outboxes then
      { sys with store := (commit (completeAnalytics now outbox) sys.store).2 }
    else sys
  | .retryAnalytics now outbox =>
    if outbox ∈ sys.outboxes then
      { sys with store := (commit (retryAnalytics env now outbox) sys.store).2 }
    else sys
  | .claimEvent now locked workerId =>
    let outcome := commit (claimEvent now locked workerId) sys.store
    { sys with store := outcome.2, events := given outcome.1 sys.events }
  | .completeEvent event =>
    if event ∈ sys.events then
      { sys with store := (commit (completeEvent event) sys.store).2 }
    else sys
  | .retryEvent now event =>
    if event ∈ sys.events then
      { sys with store := (commit (retryEvent env now event) sys.store).2 }
    else sys
  | .claimReconstructionArtifactForDeletion now locked =>
    let outcome := commit (claimReconstructionArtifactForDeletion now locked) sys.store
    { sys with store := outcome.2, deletions := given outcome.1 sys.deletions }
  | .completeReconstructionArtifactDeletion claimed =>
    if claimed ∈ sys.deletions then
      { sys with store := (commit (completeReconstructionArtifactDeletion claimed) sys.store).2 }
    else sys
  | .retryReconstructionArtifactDeletion now claimed =>
    if claimed ∈ sys.deletions then
      { sys with
        store := (commit (retryReconstructionArtifactDeletion now claimed) sys.store).2 }
    else sys

/-- The system after a sequence of transactions from the empty database. -/
def System.after (env : Env) (actions : List Action) : System :=
  run (System.step env) {} actions

end WebLens.Capture
