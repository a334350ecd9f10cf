import WebLens.Crawler.Store
import WebLens.Lib.Run

/-!
# The crawler as a system of workers

Any number of workers share the store. A worker keeps every lease, batch and message it was ever
given, and may come back with it after any pause: `leases`, `batches` and `messages` only grow. A
step is one transaction with any arguments, except that a worker returns only what it was given and
that every claim of a page is made under a fresh worker identifier, as `Engine.runDispatcher` does.
A run is any sequence of steps from the empty store.
-/

set_option autoImplicit false
set_option relaxedAutoImplicit false

namespace WebLens.Crawler

open Lib Lib.Transaction

/-- The store, and what its workers were given. -/
structure System where
  store : Store := {}
  leases : List PageLease := []
  batches : List AnalyticsBatch := []
  messages : List OutboxMessage := []

/-- A transaction with its arguments. -/
inductive Action
  | acceptCommand (now receivedAt : Instant) (envelope : ScanCommandEnvelope)
  | acceptCancellation (now receivedAt : Instant) (envelope : ScanCancelCommandEnvelope)
  | claimPage (now leaseUntil : Instant) (hostDelay : Duration) (locks : ClaimLocks)
  | extendPageLease (leaseUntil : Instant) (lease : PageLease)
  | commitPageResult (now : Instant) (lease : PageLease) (result : PageResult)
  | claimAnalytics (now leaseUntil : Instant) (locked : List Uuid) (workerId : Uuid) (limit : ℕ)
  | completeAnalytics (now : Instant) (batch : AnalyticsBatch)
  | retryAnalytics (now : Instant) (batch : AnalyticsBatch)
  | claimEvents (now leaseUntil : Instant) (locked : List Uuid) (workerId : Uuid) (limit : ℕ)
  | completeEvent (now : Instant) (message : OutboxMessage)
  | retryEvent (now : Instant) (message : OutboxMessage)
  | reclaimExpired (clock : ReclaimClock) (locks : ReclaimLocks)

/-- A claim of a page as the dispatcher makes it, under a fresh worker identifier. -/
def dispatchClaim (env : Env) (now leaseUntil : Instant) (hostDelay : Duration)
    (locks : ClaimLocks) : Tx (Option PageLease) := do
  let workerId ← newUuid
  claimPage env now leaseUntil hostDelay locks workerId

/-- One transaction. A transaction that fails leaves the store as it was. -/
def System.step (env : Env) (sys : System) : Action → System
  | .acceptCommand now receivedAt envelope =>
    { sys with store := (commit (acceptCommand env now receivedAt envelope) sys.store).2 }
  | .acceptCancellation now receivedAt envelope =>
    { sys with store := (commit (acceptCancellation env now receivedAt envelope) sys.store).2 }
  | .claimPage now leaseUntil hostDelay locks =>
    match commit (dispatchClaim env now leaseUntil hostDelay locks) sys.store with
    | (.ok (some lease), store) => { sys with store := store, leases := lease :: sys.leases }
    | (_, store) => { sys with store := store }
  | .extendPageLease leaseUntil lease =>
    if lease ∈ sys.leases then
      { sys with store := (commit (extendPageLease leaseUntil lease) sys.store).2 }
    else sys
  | .commitPageResult now lease result =>
    if lease ∈ sys.leases then
      { sys with store := (commit (commitPageResult env now lease result) sys.store).2 }
    else sys
  | .claimAnalytics now leaseUntil locked workerId limit =>
    match commit (claimAnalytics now leaseUntil locked workerId limit) sys.store with
    | (.ok batches, store) => { sys with store := store, batches := batches ++ sys.batches }
    | (.error _, store) => { sys with store := store }
  | .completeAnalytics now batch =>
    if batch ∈ sys.batches then
      { sys with store := (commit (completeAnalytics now batch) sys.store).2 }
    else sys
  | .retryAnalytics now batch =>
    if batch ∈ sys.batches then
      { sys with store := (commit (retryAnalytics now batch) sys.store).2 }
    else sys
  | .claimEvents now leaseUntil locked workerId limit =>
    match commit (claimEvents now leaseUntil locked workerId limit) sys.store with
    | (.ok messages, store) => { sys with store := store, messages := messages ++ sys.messages }
    | (.error _, store) => { sys with store := store }
  | .completeEvent now message =>
    if message ∈ sys.messages then
      { sys with store := (commit (completeEvent now message) sys.store).2 }
    else sys
  | .retryEvent now message =>
    if message ∈ sys.messages then
      { sys with store := (commit (retryEvent now message) sys.store).2 }
    else sys
  | .reclaimExpired clock locks =>
    { sys with store := (commit (reclaimExpired clock locks) sys.store).2 }

/-- The system after a sequence of transactions from the empty store. -/
def System.after (env : Env) (actions : List Action) : System :=
  run (System.step env) {} actions

end WebLens.Crawler
