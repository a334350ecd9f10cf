import WebLens.Auth.Sessions

/-!
# The session system

A system of sessions runs logins, refreshes and logouts in any order, each one transaction on the
session row, at clock readings that never go back. A client may present any token that was given
out, or a text whose signature does not verify. The log records what was given out and accepted.

`System.step_transition` says once what a step can do; the invariants are about transitions.
-/

set_option autoImplicit false
set_option relaxedAutoImplicit false

namespace WebLens.Auth

open Lib Lib.Transaction
open ControlPlane (isBlank)

/-! ### The log -/

/-- An accepted request: what the client presented and what it was given. -/
inductive Event
  | created (answer : IssuedAuthentication)
  | refreshed (presented : Credentials) (answer : IssuedAuthentication)
  | loggedOut (presented : Credentials)
deriving DecidableEq

def Event.answer? : Event → Option IssuedAuthentication
  | .created answer | .refreshed _ answer => some answer
  | .loggedOut _ => none

/-- The credentials that a refresh accepted. -/
def Event.refreshedWith? : Event → Option Credentials
  | .refreshed presented _ => some presented
  | .created _ | .loggedOut _ => none

def answers (log : List Event) : List IssuedAuthentication :=
  log.filterMap Event.answer?

def accepted (log : List Event) : List Credentials :=
  log.filterMap Event.refreshedWith?

variable (env : Env)

/-- The session that a signed token names. -/
def Env.sessionOf (token : String) : Option Uuid :=
  (env.decode token).bind Jwt.sessionId

/-- The identifier of a signed token. -/
def Env.jtiOf (token : String) : Option String :=
  (env.decode token).bind Jwt.id

/-- Whether the credentials are those of a session. -/
def Env.isFor (sessionId : Uuid) (presented : Credentials) : Bool :=
  decide (env.sessionOf presented.refreshToken = some sessionId)

/-- The credentials given out for a session, in order. -/
def issuedFor (log : List Event) (sessionId : Uuid) : List Credentials :=
  ((answers log).map IssuedAuthentication.credentials).filter (env.isFor sessionId)

/-- The credentials that refreshes of a session presented with success, in order. -/
def acceptedFor (log : List Event) (sessionId : Uuid) : List Credentials :=
  (accepted log).filter (env.isFor sessionId)

/-! ### The system -/

structure System where
  store : Store
  clock : Instant
  log : List Event

/-- The requests, with the time they wait for the row and the time they work on it; accounts that
are created, disabled or enabled; and the passing of time. -/
inductive Action
  | createSession (wait work : Duration) (draw : Draw) (userId sessionId : Uuid)
  | refresh (decodedAt : Instant) (wait work : Duration) (draw : Draw)
      (refreshToken csrfToken : Option String)
  | logout (decodedAt : Instant) (wait : Duration) (refreshToken csrfToken : Option String)
  | setUser (user : User)
  | tick (time : Duration)

namespace System

def readings (sys : System) (decodedAt : Instant) (wait work : Duration) : Readings where
  decodedAt
  now := sys.clock + wait
  issuedAt := sys.clock + wait + work

/-- A random identifier is a new one. -/
def IsFresh (sys : System) (draw : Draw) : Prop :=
  isBlank draw.refreshJti = false ∧
    ∀ answer ∈ answers sys.log, env.jtiOf answer.refreshToken ≠ some draw.refreshJti

instance (sys : System) (draw : Draw) : Decidable (sys.IsFresh env draw) :=
  inferInstanceAs (Decidable (_ ∧ _))

/-- A text that verifies was given out: nobody else holds the key. -/
def Presentable (sys : System) (text : String) : Prop :=
  env.decode text = none ∨
    ∃ answer ∈ answers sys.log, text = answer.refreshToken ∨ text = answer.accessToken

instance (sys : System) (text : String) : Decidable (sys.Presentable env text) :=
  inferInstanceAs (Decidable (_ ∨ _))

/-- One request; one that the environment cannot make changes nothing. -/
def step (sys : System) : Action → System
  | .createSession wait work draw userId sessionId =>
    let readings := sys.readings sys.clock wait work
    if sys.IsFresh env draw ∧ sys.store.session? sessionId = none then
      match commit (Auth.createSession env readings draw userId sessionId) sys.store with
      | (.ok answer, store) => ⟨store, readings.issuedAt, sys.log ++ [.created answer]⟩
      | (.error _, store) => ⟨store, readings.issuedAt, sys.log⟩
    else sys
  | .refresh decodedAt wait work draw refreshToken csrfToken =>
    let readings := sys.readings decodedAt wait work
    if sys.IsFresh env draw ∧ ∀ text, refreshToken = some text → sys.Presentable env text then
      match commit (Auth.refresh env readings draw refreshToken csrfToken) sys.store with
      | (.ok answer, store) =>
        ⟨store, readings.issuedAt,
          sys.log ++ [.refreshed ⟨refreshToken.getD "", csrfToken.getD ""⟩ answer]⟩
      | (.error _, store) => ⟨store, readings.issuedAt, sys.log⟩
    else sys
  | .logout decodedAt wait refreshToken csrfToken =>
    let readings := sys.readings decodedAt wait 0
    if ∀ text, refreshToken = some text → sys.Presentable env text then
      let store := (commit (Auth.logout env readings refreshToken csrfToken) sys.store).2
      match loggedOut? env decodedAt refreshToken csrfToken sys.store with
      | some _ =>
        ⟨store, readings.issuedAt,
          sys.log ++ [.loggedOut ⟨refreshToken.getD "", csrfToken.getD ""⟩]⟩
      | none => ⟨store, readings.issuedAt, sys.log⟩
    else sys
  | .setUser user =>
    { sys with store := { sys.store with
        users := user :: sys.store.users.filter fun other ↦ decide (other.id ≠ user.id) } }
  | .tick time => { sys with clock := sys.clock + time }

end System

/-! ### What a step does -/

variable {env}

/-- What one step does to the sessions and the log, and that the clock does not go back. -/
inductive Transition (env : Env) (sys : System) : System → Prop
  | quiet {store : Store} {clock : Instant} (hsessions : store.sessions = sys.store.sessions)
      (hclock : sys.clock ≤ clock) : Transition env sys ⟨store, clock, sys.log⟩
  | created {readings : Readings} {draw : Draw} {userId sessionId : Uuid}
      (hfresh : sys.IsFresh env draw) (hnew : sys.store.session? sessionId = none)
      (hclock : sys.clock ≤ readings.issuedAt) :
      Transition env sys
        ⟨{ sys.store with
            sessions := sys.store.sessions ++ [newSession env readings draw userId sessionId] },
          readings.issuedAt,
          sys.log ++ [.created (issued (env.issue draw readings.issuedAt userId sessionId)
            draw.csrfToken)]⟩
  | refreshed {readings : Readings} {draw : Draw} {presented : Credentials}
      {session : AuthSession} (hfresh : sys.IsFresh env draw)
      (hpresentable : sys.Presentable env presented.refreshToken)
      (haccepts : Accepts env sys.store readings.decodedAt readings.now presented session)
      (hnow : sys.clock ≤ readings.now) (hclock : readings.now ≤ readings.issuedAt) :
      Transition env sys
        ⟨sys.store.saveSession (session.rotate (env.hash draw.refreshJti)
            (env.hash draw.csrfToken) (readings.issuedAt + env.properties.refreshTtl)
            readings.now),
          readings.issuedAt,
          sys.log ++ [.refreshed presented
            (issued (env.issue draw readings.issuedAt session.userId session.id)
              draw.csrfToken)]⟩
  | loggedOut {decodedAt now : Instant} {presented : Credentials} {session : AuthSession}
      (hpresentable : sys.Presentable env presented.refreshToken)
      (hpresents : loggedOut? env decodedAt (some presented.refreshToken)
        (some presented.csrfToken) sys.store = some session)
      (hclock : sys.clock ≤ now) :
      Transition env sys
        ⟨sys.store.saveSession (session.revoke now), now, sys.log ++ [.loggedOut presented]⟩

theorem returns_createSession {readings : Readings} {draw : Draw} {userId sessionId : Uuid}
    {s s' : Store} {answer : IssuedAuthentication}
    (h : Returns (createSession env readings draw userId sessionId) s answer s') :
    answer = issued (env.issue draw readings.issuedAt userId sessionId) draw.csrfToken ∧
      s' = { s with
        sessions := s.sessions ++ [newSession env readings draw userId sessionId] } := by
  unfold createSession at h
  simp only [returns_bind, returns_found, returns_get, returns_require, returns_modify,
    returns_pure, and_assoc, exists_and_left, exists_eq_left, exists_const] at h
  obtain ⟨_, -, -, rfl, rfl⟩ := h
  exact ⟨rfl, rfl⟩

/-- A logout presents the current credentials of a session, or changes nothing. -/
theorem loggedOut?_eq_some {decodedAt : Instant} {refreshToken csrfToken : Option String}
    {s : Store} {session : AuthSession}
    (h : loggedOut? env decodedAt refreshToken csrfToken s = some session) :
    ∃ presented : Credentials, refreshToken = some presented.refreshToken ∧
      csrfToken = some presented.csrfToken ∧ session ∈ s.sessions ∧
      ∃ jwt, env.decodeRefresh decodedAt presented.refreshToken = some jwt ∧
        jwt.sessionId = some session.id ∧
        matchesSession env jwt.id (some presented.csrfToken) session = true := by
  simp only [loggedOut?, Option.bind_eq_bind, Option.bind_eq_some_iff,
    Option.filter_eq_some_iff, Option.ite_none_right_eq_some, Option.some.injEq] at h
  obtain ⟨text, ⟨rfl, -⟩, jwt, hjwt, id, hid, _, hfound, hmatches, rfl⟩ := h
  obtain ⟨hmem, rfl⟩ := session?_eq_some hfound
  obtain ⟨_, csrf, -, rfl, -⟩ := matchesSession_some hmatches
  exact ⟨⟨text, csrf⟩, rfl, rfl, hmem, jwt, hjwt, hid, hmatches⟩

theorem commit_logout {readings : Readings} {refreshToken csrfToken : Option String}
    (s : Store) :
    (commit (logout env readings refreshToken csrfToken) s).2 =
      match loggedOut? env readings.decodedAt refreshToken csrfToken s with
      | none => s
      | some session => s.saveSession (session.revoke readings.now) := by
  have hreturns : Returns (logout env readings refreshToken csrfToken) s ()
      (match loggedOut? env readings.decodedAt refreshToken csrfToken s with
        | none => s
        | some session => s.saveSession (session.revoke readings.now)) := by
    unfold logout
    rw [returns_bind]
    refine ⟨s, s, returns_get.2 ⟨rfl, rfl⟩, ?_⟩
    cases loggedOut? env readings.decodedAt refreshToken csrfToken s with
    | none => exact returns_pure.2 ⟨rfl, rfl⟩
    | some session => exact returns_modify.2 rfl
  rw [commit_ok_iff.2 hreturns]

/-- Every step is a transition. -/
theorem System.step_transition (sys : System) (action : Action) :
    Transition env sys (sys.step env action) := by
  cases action with
  | createSession wait work draw userId sessionId =>
    unfold step
    dsimp only
    have hclock : sys.clock ≤ sys.clock + wait + work := by
      rw [Nat.add_assoc]
      exact Nat.le_add_right _ _
    split_ifs with hguard
    · rcases commit_cases (Auth.createSession env (sys.readings sys.clock wait work) draw userId
        sessionId) sys.store with ⟨answer, store, heq, hreturns⟩ | ⟨error, heq⟩
      · rw [heq]
        obtain ⟨rfl, rfl⟩ := returns_createSession hreturns
        exact .created hguard.1 hguard.2 hclock
      · rw [heq]
        exact .quiet rfl hclock
    · exact .quiet rfl (Nat.le_refl _)
  | refresh decodedAt wait work draw refreshToken csrfToken =>
    unfold step
    dsimp only
    split_ifs with hguard
    · rcases commit_cases (Auth.refresh env (sys.readings decodedAt wait work) draw refreshToken
        csrfToken) sys.store with ⟨answer, store, heq, hreturns⟩ | ⟨error, heq⟩
      · rw [heq]
        obtain ⟨presented, rfl, rfl, session, haccepts, rfl, rfl⟩ := returns_refresh.1 hreturns
        exact .refreshed hguard.1 (hguard.2 _ rfl) haccepts (Nat.le_add_right _ _)
          (Nat.le_add_right _ _)
      · rw [heq]
        refine .quiet rfl ?_
        show sys.clock ≤ sys.clock + wait + work
        rw [Nat.add_assoc]
        exact Nat.le_add_right _ _
    · exact .quiet rfl (Nat.le_refl _)
  | logout decodedAt wait refreshToken csrfToken =>
    unfold step
    dsimp only
    split_ifs with hguard
    · rw [commit_logout]
      cases hpresents : loggedOut? env decodedAt refreshToken csrfToken sys.store with
      | none =>
        simp only [readings, hpresents]
        exact .quiet rfl (Nat.le_add_right _ _)
      | some session =>
        obtain ⟨presented, rfl, rfl, -⟩ := loggedOut?_eq_some hpresents
        simp only [readings, hpresents]
        exact .loggedOut (hguard _ rfl) hpresents (Nat.le_add_right _ _)
    · exact .quiet rfl (Nat.le_refl _)
  | setUser user => exact .quiet rfl (Nat.le_refl _)
  | tick time => exact .quiet rfl (Nat.le_add_right _ _)

end WebLens.Auth
