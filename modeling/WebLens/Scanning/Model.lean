import WebLens.ControlPlane.Deliveries
import WebLens.ControlPlane.Inbox
import WebLens.ControlPlane.Waiting
import WebLens.Crawler.Delivery

/-!
# The Control Plane and the crawler

The two services with what goes between them. A dispatcher posts a command that it claimed to the
crawler, and completes it once the crawler has answered; a publisher posts an event that it claimed
to the Control Plane, and completes it once the Control Plane has answered. Either may post a
message any number of times, in any order and after any pause, and may fail in between. A message
arrives as it was sent, and identifiers drawn by different services differ.
-/

set_option autoImplicit false
set_option relaxedAutoImplicit false

namespace WebLens

deriving instance DecidableEq for Crawler.ScanRequestedPayload
deriving instance DecidableEq for Crawler.ScanCommandEnvelope
deriving instance DecidableEq for Crawler.ScanCancelPayload
deriving instance DecidableEq for Crawler.ScanCancelCommandEnvelope
deriving instance DecidableEq for ControlPlane.Command
deriving instance DecidableEq for ControlPlane.OutboxRecord

namespace Scanning

open Lib Lib.Transaction ControlPlane
open Crawler (Instant)

/-- What the two services take from outside this code. -/
structure Env where
  control : WorkflowEnv
  crawler : Crawler.Env

/-- The two services, and what goes between them. -/
structure State where
  control : WorkflowTables := {}
  crawler : Crawler.System := {}
  /-- The records that the dispatchers were given. -/
  records : List OutboxRecord := []
  /-- The records whose command the crawler has accepted. -/
  acknowledged : List OutboxRecord := []
  /-- The messages whose event the Control Plane has accepted. -/
  accepted : List Crawler.OutboxMessage := []
  /-- The events that the site clone worker has sent. -/
  siteCloneEvents : List SiteClone.SiteCloneEventEnvelope := []

/-- What the services do, each with its arguments. -/
inductive Action
  /-- A transaction of the Control Plane. -/
  | control (action : WorkflowAction)
  /-- A transaction of the crawler. -/
  | crawler (action : Crawler.Action)
  /-- A dispatcher posts a command. -/
  | postCommand (now receivedAt : Instant) (record : OutboxRecord)
  /-- A publisher posts an event. -/
  | postEvent (now : Instant) (message : Crawler.OutboxMessage)
  /-- The site clone worker draws an identifier for an event. -/
  | siteCloneEvent (envelope : SiteClone.SiteCloneEventEnvelope)

/-- A transaction of the Control Plane. Events come to it through `postEvent` or from the site clone
worker, and a dispatcher completes only what it has an answer for. -/
def State.stepControl (env : Env) (s : State) (action : WorkflowAction) : State :=
  match action with
  | .consumeScanEvent _ _ => s
  | .consumeSiteCloneEvent envelope =>
    if envelope ∈ s.siteCloneEvents then
      { s with control := s.control.step env.control action }
    else s
  | .claim dispatcher now leaseUntil locked workerId limit =>
    { s with
      control := s.control.step env.control action
      records := (claimRows dispatcher now leaseUntil locked workerId limit s.control.outbox).1 ++
        s.records }
  | .complete record =>
    if record ∈ s.acknowledged ∨ record ∈ s.records ∧ record.command.aggregateType = "SITE_CLONE"
    then { s with control := s.control.step env.control action }
    else s
  | action => { s with control := s.control.step env.control action }

/-- A transaction of the crawler. Commands come to it through `postCommand`, and a publisher
completes only what it has an answer for. -/
def State.stepCrawler (env : Env) (s : State) (action : Crawler.Action) : State :=
  match action with
  | .acceptCommand .. | .acceptCancellation .. => s
  | .completeEvent _ message =>
    if message ∈ s.accepted then { s with crawler := s.crawler.step env.crawler action } else s
  | action => { s with crawler := s.crawler.step env.crawler action }

/-- The answer of the crawler to a command. -/
def Env.answer (env : Env) (now receivedAt : Instant) (command : Command) (store : Crawler.Store) :
    Except Crawler.StoreError Bool × Crawler.Store :=
  match command with
  | .scanRequested envelope =>
    commit (Crawler.acceptCommand env.crawler now receivedAt envelope) store
  | .scanCancelRequested envelope =>
    commit (Crawler.acceptCancellation env.crawler now receivedAt envelope) store
  | .siteClone _ => (.error .executionNotReady, store)

/-- `Server.acceptScan`, on a record that a dispatcher holds. -/
def State.postCommand (env : Env) (s : State) (now receivedAt : Instant) (record : OutboxRecord) :
    State :=
  if record ∈ s.records then
    let answer := env.answer now receivedAt record.command s.crawler.store
    { s with
      crawler := { s.crawler with store := answer.2 }
      acknowledged := if answer.1.isOk then record :: s.acknowledged else s.acknowledged }
  else s

/-- `ScanEventController.consume`, on a message that a publisher holds. -/
def State.postEvent (env : Env) (s : State) (now : Instant) (message : Crawler.OutboxMessage) :
    State :=
  if message ∈ s.crawler.messages then
    let answer := commit (consumeScanEvent env.control now message.payload) s.control
    { s with
      control := answer.2
      accepted := if answer.1.isOk then message :: s.accepted else s.accepted }
  else s

/-- The site clone worker sends an event under an identifier of its own. -/
def State.sendSiteCloneEvent (s : State) (envelope : SiteClone.SiteCloneEventEnvelope) : State :=
  { s with
    crawler := { s.crawler with
      store := { s.crawler.store with nextUuid := s.crawler.store.nextUuid + 1 } }
    siteCloneEvents := { envelope with messageId := s.crawler.store.nextUuid } ::
      s.siteCloneEvents }

def State.step (env : Env) (s : State) : Action → State
  | .control action => s.stepControl env action
  | .crawler action => s.stepCrawler env action
  | .postCommand now receivedAt record => s.postCommand env now receivedAt record
  | .postEvent now message => s.postEvent env now message
  | .siteCloneEvent envelope => s.sendSiteCloneEvent envelope

/-- The services after some steps from their empty tables. -/
def State.after (env : Env) (actions : List Action) : State :=
  run (State.step env) {} actions

end Scanning

end WebLens
