import WebLens.ControlPlane.Scans
import WebLens.Crawler.Store
import WebLens.SiteClone.Model

/-!
# The outbox of the Control Plane

The commands that the Control Plane sends, the rows of its outbox, and how a dispatcher claims a
row, completes it or returns it. The commands for the crawler and those for the site clone worker
are claimed apart.
-/

set_option autoImplicit false
set_option relaxedAutoImplicit false

namespace WebLens.ControlPlane

open Lib Lib.Transaction
open Capture (Uuid)
open Crawler (Instant DeliveryStatus)

/-! ### Commands -/

/-- `MessageEnvelope`, one case for each payload. -/
inductive Command
  | scanRequested (envelope : Crawler.ScanCommandEnvelope)
  | scanCancelRequested (envelope : Crawler.ScanCancelCommandEnvelope)
  | siteClone (envelope : SiteClone.SiteCloneCommandEnvelope)

def Command.messageId : Command → Uuid
  | .scanRequested envelope => envelope.messageId
  | .scanCancelRequested envelope => envelope.messageId
  | .siteClone (.requested envelope) => envelope.messageId
  | .siteClone (.cancelRequested envelope) => envelope.messageId

def Command.aggregateType : Command → String
  | .scanRequested envelope => envelope.aggregateType
  | .scanCancelRequested envelope => envelope.aggregateType
  | .siteClone _ => "SITE_CLONE"

def Command.aggregateId : Command → Uuid
  | .scanRequested envelope => envelope.aggregateId
  | .scanCancelRequested envelope => envelope.aggregateId
  | .siteClone (.requested envelope) => envelope.aggregateId
  | .siteClone (.cancelRequested envelope) => envelope.aggregateId

def Command.aggregateVersion : Command → ℤ
  | .scanRequested envelope => envelope.aggregateVersion
  | .scanCancelRequested envelope => envelope.aggregateVersion
  | .siteClone (.requested envelope) => envelope.aggregateVersion
  | .siteClone (.cancelRequested envelope) => envelope.aggregateVersion

def Command.messageType : Command → String
  | .scanRequested envelope => envelope.messageType
  | .scanCancelRequested envelope => envelope.messageType
  | .siteClone (.requested _) => "SITE_CLONE_REQUESTED"
  | .siteClone (.cancelRequested _) => "SITE_CLONE_CANCEL_REQUESTED"

/-! ### Rows -/

/-- A row of `outbox_events`. -/
structure OutboxRow where
  command : Command
  status : DeliveryStatus := .pending
  availableAt : Instant
  deliveryAttempts : ℕ := 0
  leaseOwner : Option Uuid := none
  leaseExpiresAt : Option Instant := none
  createdAt : Instant

def OutboxRow.messageId (row : OutboxRow) : Uuid :=
  row.command.messageId

/-- `OutboxRecord`. -/
structure OutboxRecord where
  command : Command
  deliveryAttempts : ℕ
  leaseOwner : Uuid

def OutboxRecord.messageId (record : OutboxRecord) : Uuid :=
  record.command.messageId

/-- The dispatchers, each for the commands of one other service. -/
inductive Dispatcher
  | crawler
  | siteClone
  deriving DecidableEq

/-- The aggregate type and the event types that a dispatcher claims. -/
def Dispatcher.takes : Dispatcher → Command → Bool
  | .crawler, command => decide (command.aggregateType = "SCAN") &&
    ["SCAN_REQUESTED", "SCAN_CANCEL_REQUESTED"].contains command.messageType
  | .siteClone, command => decide (command.aggregateType = "SITE_CLONE") &&
    ["SITE_CLONE_REQUESTED", "SITE_CLONE_CANCEL_REQUESTED"].contains command.messageType

/-- Whether a row can be claimed: it is due, or its lease has expired. -/
def OutboxRow.isDue (now : Instant) (row : OutboxRow) : Bool :=
  ((decide (row.status = .pending) || decide (row.status = .dead)) &&
      decide (row.availableAt ≤ now)) ||
    (decide (row.status = .claimed) && Crawler.expiredAt row.leaseExpiresAt now)

def OutboxRow.claim (workerId : Uuid) (leaseUntil : Instant) (row : OutboxRow) : OutboxRow :=
  { row with
    status := .claimed
    leaseOwner := some workerId
    leaseExpiresAt := some leaseUntil
    deliveryAttempts := row.deliveryAttempts + 1 }

def OutboxRow.record (workerId : Uuid) (row : OutboxRow) : OutboxRecord where
  command := row.command
  deliveryAttempts := row.deliveryAttempts
  leaseOwner := workerId

/-- Whether a record is still the claim of its row. -/
def OutboxRow.isClaimedBy (record : OutboxRecord) (row : OutboxRow) : Bool :=
  decide (row.messageId = record.messageId) && decide (row.status = .claimed) &&
    decide (row.leaseOwner = some record.leaseOwner)

def OutboxRow.deliver (row : OutboxRow) : OutboxRow :=
  { row with status := .delivered, leaseOwner := none, leaseExpiresAt := none }

/-- The row after a failed delivery. A row that failed twenty times is dead, and is tried again
like any other. -/
def OutboxRow.retry (availableAt : Instant) (row : OutboxRow) : OutboxRow :=
  { row with
    status := Crawler.retryStatus row.deliveryAttempts
    availableAt := availableAt
    leaseOwner := none
    leaseExpiresAt := none }

/-! ### Statements -/

/-- `claim`, `claimCaptures` and `claimSiteClones` without their limit check: the rows after the
claim and the records of the claimed ones. -/
def claimRows (dispatcher : Dispatcher) (now leaseUntil : Instant) (locked : List Uuid)
    (workerId : Uuid) (limit : ℕ) (rows : List OutboxRow) :
    List OutboxRecord × List OutboxRow :=
  let ids := Crawler.claimIds OutboxRow.messageId
    (fun row ↦ dispatcher.takes row.command && row.isDue now) OutboxRow.availableAt
    OutboxRow.createdAt limit locked rows
  let claimed := Table.update (fun row ↦ decide (row.messageId ∈ ids))
    (OutboxRow.claim workerId leaseUntil) rows
  ((claimed.filter fun row ↦ decide (row.messageId ∈ ids)).map (OutboxRow.record workerId), claimed)

/-- `complete`: whether a row was completed, and the rows. -/
def completeRows (record : OutboxRecord) (rows : List OutboxRow) : Bool × List OutboxRow :=
  (decide (rows.countP (OutboxRow.isClaimedBy record) = 1),
    Table.update (OutboxRow.isClaimedBy record) OutboxRow.deliver rows)

/-- `retryDelay`, in the nanoseconds of an instant; `leastBits` are the least significant bits of
the message identifier. -/
def outboxRetryDelay (attempt : ℕ) (leastBits : ℤ) : Crawler.Duration :=
  let exponent := min (attempt - 1) 8
  let baseMillis := 2 ^ exponent * 1_000
  let jitterRange := baseMillis / 2
  let jitter := (leastBits % ((jitterRange + 1 : ℕ) : ℤ)).toNat
  (baseMillis / 2 + jitter) * 1_000_000 +
    if 20 ≤ attempt then 300 * Crawler.second else 0

/-- `retry`: whether a row was returned, and the rows. -/
def retryRows (now : Instant) (leastBits : ℤ) (record : OutboxRecord) (rows : List OutboxRow) :
    Bool × List OutboxRow :=
  (decide (rows.countP (OutboxRow.isClaimedBy record) = 1),
    Table.update (OutboxRow.isClaimedBy record)
      (OutboxRow.retry (now + outboxRetryDelay record.deliveryAttempts leastBits)) rows)

end WebLens.ControlPlane
