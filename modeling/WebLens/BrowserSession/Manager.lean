import Mathlib.Data.Finset.Card
import WebLens.Lib.Run
import WebLens.Lib.Table

/-!
# Interactive browser sessions

The manager of the browser sessions in which users get past a check. A section between two awaits is
one step: the synchronous part of a call, the moment when a start has its page, its navigation, its
failure and the end of the clean-up after it, a timer, and the callback of a browser that
disconnects. Which of them come, and when, is arbitrary.

A session is removed by the number of its object or by the id it is stored under. The timer and the
clean-up of a failed start work by id.
-/

set_option autoImplicit false
set_option relaxedAutoImplicit false

namespace WebLens.BrowserSession

open Lib

/-! ### The state -/

def sessionTtlMillis : ℕ := 10 * 60 * 1000

def maxSessions : ℕ := 1

inductive Status
  | awaitingUser
  | ready
deriving DecidableEq

/-- `BrowserSession`; `serial` tells the objects apart, and stands for the browser and the context
of the session. -/
structure Session where
  serial : ℕ
  ownerId : String
  siteCloneId : String
  status : Status := .awaitingUser
  expiresAt : ℕ
deriving DecidableEq

/-- The timer of a session until it fires or is cleared. -/
structure Timer where
  serial : ℕ
  siteCloneId : String
  due : ℕ
deriving DecidableEq

/-- Where a start is: before it has a page, while it navigates, cleaning up after a failure, and
between its end and the callback that forgets it. -/
inductive Phase
  | launching
  | navigating
  | failing
  | settled
deriving DecidableEq

/-- An entry of `pendingStarts`. -/
structure PendingStart where
  siteCloneId : String
  ownerId : String
  phase : Phase
deriving DecidableEq

/-- Whether a start counts in `starting`. -/
def PendingStart.isActive (pending : PendingStart) : Bool :=
  pending.phase != .settled

/-- `BrowserSessionHandle`: the context of a session, and whose session it is. -/
structure Handle where
  session : ℕ
  ownerId : String
deriving DecidableEq

/-- A call of `waitForReady` by the owner of a session. It is a waiter of the session until it has a
result. -/
structure Wait where
  waiter : ℕ
  ownerId : String
  session : ℕ
  due : ℕ
  result : Option (Option Handle) := none
deriving DecidableEq

structure Manager where
  now : ℕ := 0
  sessions : List Session := []
  pendingStarts : List PendingStart := []
  starting : ℕ := 0
  timers : List Timer := []
  waits : List Wait := []
  nextSerial : ℕ := 0

namespace Manager

variable (manager : Manager)

/-! ### Removing a session -/

/-- `sessions.get(siteCloneId)`. -/
def get (siteCloneId : String) : Option Session :=
  manager.sessions.find? (·.siteCloneId == siteCloneId)

/-- `sessions.delete(siteCloneId)`. -/
def delete (siteCloneId : String) : Manager :=
  { manager with sessions := manager.sessions.filter (·.siteCloneId != siteCloneId) }

/-- Gives the waiters of a session their result. -/
def resolve (session : ℕ) (result : Option Handle) : Manager :=
  { manager with
    waits := Table.update (fun wait ↦ wait.session == session && wait.result.isNone)
      (fun wait ↦ { wait with result := some result }) manager.waits }

/-- `clearTimeout(session.timer)`. -/
def clearTimer (serial : ℕ) : Manager :=
  { manager with timers := manager.timers.filter (·.serial != serial) }

def closeById (siteCloneId : String) : Manager :=
  match manager.get siteCloneId with
  | none => manager
  | some session =>
    ((manager.delete siteCloneId).clearTimer session.serial).resolve session.serial none

/-- `owned`; `lost` says whether the browser or all pages of the session are gone. -/
def owned (ownerId siteCloneId : String) (lost : Bool) : Manager × Option Session :=
  match manager.get siteCloneId with
  | none => (manager, none)
  | some session =>
    if session.ownerId ≠ ownerId then (manager, none)
    else if session.expiresAt ≤ manager.now ∨ lost = true then
      (manager.closeById siteCloneId, none)
    else (manager, some session)

/-! ### Starting -/

/-- `pendingStarts.get(siteCloneId)`. -/
def pending (siteCloneId : String) : Option PendingStart :=
  manager.pendingStarts.find? (·.siteCloneId == siteCloneId)

/-- The start of an id goes on to a phase. -/
def setPhase (siteCloneId : String) (phase : Phase) : Manager :=
  { manager with
    pendingStarts := Table.update (·.siteCloneId == siteCloneId)
      (fun pending ↦ { pending with phase := phase }) manager.pendingStarts }

def addPending (siteCloneId ownerId : String) (phase : Phase) : Manager :=
  { manager with
    pendingStarts := manager.pendingStarts ++
      [{ siteCloneId := siteCloneId, ownerId := ownerId, phase := phase }] }

/-- `start`, up to the first await of `startSession`. A session that exists, one of another owner
and a lack of capacity settle it at once. -/
def start (ownerId siteCloneId : String) (lost : Bool) : Manager :=
  match manager.pending siteCloneId with
  | some _ => manager
  | none =>
    let after := (manager.owned ownerId siteCloneId lost).1
    if (manager.owned ownerId siteCloneId lost).2.isSome || (after.get siteCloneId).isSome ||
        maxSessions ≤ after.sessions.length + after.starting then
      after.addPending siteCloneId ownerId .settled
    else
      { after.addPending siteCloneId ownerId .launching with starting := after.starting + 1 }

/-- `sessions.set(siteCloneId, session)`. -/
def store (session : Session) : Manager :=
  { manager with
    sessions :=
      if (manager.get session.siteCloneId).isSome then
        Table.update (·.siteCloneId == session.siteCloneId) (fun _ ↦ session) manager.sessions
      else manager.sessions ++ [session] }

/-- The start of an id has its page: the session is stored and its timer runs. -/
def opened (siteCloneId : String) : Manager :=
  match manager.pending siteCloneId with
  | none => manager
  | some pending =>
    if pending.phase ≠ .launching then manager
    else
      let session : Session :=
        { serial := manager.nextSerial
          ownerId := pending.ownerId
          siteCloneId := siteCloneId
          expiresAt := manager.now + sessionTtlMillis }
      let timer : Timer :=
        { serial := session.serial, siteCloneId := siteCloneId, due := session.expiresAt }
      { (manager.store session).setPhase siteCloneId .navigating with
        timers := manager.timers ++ [timer]
        nextSerial := manager.nextSerial + 1 }

/-- The start of an id has navigated and measured its page, and returns. -/
def navigated (siteCloneId : String) : Manager :=
  match manager.pending siteCloneId with
  | none => manager
  | some pending =>
    if pending.phase ≠ .navigating then manager
    else { manager.setPhase siteCloneId .settled with starting := manager.starting - 1 }

/-- Something in the start of an id throws. -/
def failed (siteCloneId : String) : Manager :=
  match manager.pending siteCloneId with
  | none => manager
  | some pending =>
    if pending.phase ≠ .launching ∧ pending.phase ≠ .navigating then manager
    else manager.setPhase siteCloneId .failing

/-- The start of an id has closed what it had opened after a failure. -/
def cleaned (siteCloneId : String) : Manager :=
  match manager.pending siteCloneId with
  | none => manager
  | some pending =>
    if pending.phase ≠ .failing then manager
    else
      { (manager.delete siteCloneId).setPhase siteCloneId .settled with
        starting := manager.starting - 1 }

/-- `pendingStarts.delete(siteCloneId)`, after the start has ended. -/
def forget (siteCloneId : String) : Manager :=
  match manager.pending siteCloneId with
  | none => manager
  | some pending =>
    if pending.phase ≠ .settled then manager
    else
      { manager with
        pendingStarts := manager.pendingStarts.filter (·.siteCloneId != siteCloneId) }

/-! ### Using a session -/

/-- `ready`. -/
def ready (ownerId siteCloneId : String) (lost : Bool) : Manager :=
  let after := (manager.owned ownerId siteCloneId lost).1
  match (manager.owned ownerId siteCloneId lost).2 with
  | none => after
  | some session =>
    { after with
      sessions := Table.update (·.siteCloneId == siteCloneId)
        (fun session ↦ { session with status := .ready }) after.sessions }.resolve session.serial
      (some { session := session.serial, ownerId := session.ownerId })

/-- `waitForReady`, up to its await. -/
def waitForReady (ownerId siteCloneId : String) (waiter timeoutMillis : ℕ) (lost : Bool) :
    Manager :=
  let after := (manager.owned ownerId siteCloneId lost).1
  match (manager.owned ownerId siteCloneId lost).2 with
  | none => after
  | some session =>
    let wait : Wait :=
      { waiter := waiter
        ownerId := ownerId
        session := session.serial
        due := after.now + max 1 (min timeoutMillis (session.expiresAt - after.now))
        result := match session.status with
          | .awaitingUser => none
          | .ready => some (some { session := session.serial, ownerId := session.ownerId }) }
    { after with waits := after.waits ++ [wait] }

/-- The timer of a waiter. -/
def waitTimeout (waiter : ℕ) : Manager :=
  { manager with
    waits := Table.update
      (fun wait ↦ wait.waiter == waiter && wait.result.isNone && decide (wait.due ≤ manager.now))
      (fun wait ↦ { wait with result := some none }) manager.waits }

/-- `close`, up to its await. -/
def close (ownerId siteCloneId : String) (lost : Bool) : Manager :=
  match (manager.owned ownerId siteCloneId lost).2 with
  | none => (manager.owned ownerId siteCloneId lost).1
  | some _ => (manager.owned ownerId siteCloneId lost).1.closeById siteCloneId

def closeAll : Manager :=
  (manager.sessions.map Session.siteCloneId).foldl closeById manager

/-- The timer of a session fires. -/
def fire (serial : ℕ) : Manager :=
  match manager.timers.find? (·.serial == serial) with
  | none => manager
  | some timer =>
    if timer.due ≤ manager.now then (manager.clearTimer serial).closeById timer.siteCloneId
    else manager

/-- The browser of a session disconnects. -/
def disconnected (serial : ℕ) (siteCloneId : String) : Manager :=
  match manager.get siteCloneId with
  | none => manager
  | some session =>
    if session.serial = serial then manager.closeById siteCloneId else manager

end Manager

/-! ### Runs -/

/-- A section between two awaits. `status` also stands for the beginnings of `screenshot` and `act`,
whose later sections change no session. -/
inductive Event
  | tick (millis : ℕ)
  | start (ownerId siteCloneId : String) (lost : Bool)
  | opened (siteCloneId : String)
  | navigated (siteCloneId : String)
  | failed (siteCloneId : String)
  | cleaned (siteCloneId : String)
  | forget (siteCloneId : String)
  | status (ownerId siteCloneId : String) (lost : Bool)
  | ready (ownerId siteCloneId : String) (lost : Bool)
  | waitForReady (ownerId siteCloneId : String) (waiter timeoutMillis : ℕ) (lost : Bool)
  | waitTimeout (waiter : ℕ)
  | close (ownerId siteCloneId : String) (lost : Bool)
  | closeAll
  | fire (serial : ℕ)
  | disconnected (serial : ℕ) (siteCloneId : String)
deriving DecidableEq

def step (manager : Manager) : Event → Manager
  | .tick millis => { manager with now := manager.now + millis }
  | .start ownerId siteCloneId lost => manager.start ownerId siteCloneId lost
  | .opened siteCloneId => manager.opened siteCloneId
  | .navigated siteCloneId => manager.navigated siteCloneId
  | .failed siteCloneId => manager.failed siteCloneId
  | .cleaned siteCloneId => manager.cleaned siteCloneId
  | .forget siteCloneId => manager.forget siteCloneId
  | .status ownerId siteCloneId lost => (manager.owned ownerId siteCloneId lost).1
  | .ready ownerId siteCloneId lost => manager.ready ownerId siteCloneId lost
  | .waitForReady ownerId siteCloneId waiter timeoutMillis lost =>
    manager.waitForReady ownerId siteCloneId waiter timeoutMillis lost
  | .waitTimeout waiter => manager.waitTimeout waiter
  | .close ownerId siteCloneId lost => manager.close ownerId siteCloneId lost
  | .closeAll => manager.closeAll
  | .fire serial => manager.fire serial
  | .disconnected serial siteCloneId => manager.disconnected serial siteCloneId

/-- The manager after some events. -/
def after (events : List Event) : Manager :=
  run step {} events

end WebLens.BrowserSession
