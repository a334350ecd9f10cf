import WebLens.Auth.Tokens
import WebLens.Lib.Table
import WebLens.Lib.Run
import WebLens.Lib.Transaction

/-!
# User sessions

The table of sessions and the requests of `AuthenticationService` that read and change it, each one
transaction on the session row: the creation of a session by a registration or a login, the
rotation of a refresh token and the logout.

A system runs these requests in any order. It remembers every credential that was given out, and in
its log what was issued and accepted for which session.
-/

set_option autoImplicit false
set_option relaxedAutoImplicit false

namespace WebLens.Auth

open Lib Lib.Transaction
open ControlPlane (isBlank)

/-! ### The tables -/

inductive UserStatus
  | active
  | disabled
deriving DecidableEq

/-- The row of a user, as far as sessions read it. -/
structure User where
  id : Uuid
  status : UserStatus
deriving DecidableEq

/-- `AuthSessionEntity`. -/
structure AuthSession where
  id : Uuid
  userId : Uuid
  refreshJtiHash : String
  csrfTokenHash : String
  expiresAt : Instant
  revokedAt : Option Instant
  createdAt : Instant
  rotatedAt : Option Instant
deriving DecidableEq

namespace AuthSession

def rotate (newRefreshJtiHash newCsrfTokenHash : String) (newExpiresAt now : Instant)
    (session : AuthSession) : AuthSession :=
  { session with
    refreshJtiHash := newRefreshJtiHash
    csrfTokenHash := newCsrfTokenHash
    expiresAt := newExpiresAt
    rotatedAt := some now }

def revoke (now : Instant) (session : AuthSession) : AuthSession :=
  { session with revokedAt := session.revokedAt.or (some now) }

def isUsableAt (now : Instant) (session : AuthSession) : Bool :=
  session.revokedAt.isNone && decide (now < session.expiresAt)

end AuthSession

structure Store where
  users : List User
  sessions : List AuthSession
deriving DecidableEq

namespace Store

/-- `AuthSessionRepository.findByIdForUpdate`. -/
def session? (s : Store) (id : Uuid) : Option AuthSession :=
  s.sessions.find? fun session ↦ decide (session.id = id)

def user? (s : Store) (id : Uuid) : Option User :=
  s.users.find? fun user ↦ decide (user.id = id)

/-- Replaces the row of a session. -/
def saveSession (session : AuthSession) (s : Store) : Store :=
  { s with
    sessions := Table.update (fun row ↦ decide (row.id = session.id)) (fun _ ↦ session)
      s.sessions }

end Store

/-! ### The service -/

/-- The only error that a refresh reports. -/
inductive Error
  | invalidCredentials
  | invalidRefreshToken
deriving DecidableEq

abbrev Tx := Transaction Store Error

/-- What a client is given; the description of the user is left out. -/
structure IssuedAuthentication where
  accessToken : String
  expiresAt : Instant
  refreshToken : String
  csrfToken : String
deriving DecidableEq

/-- The clock readings of a request: when the token is decoded, when the row is locked and when the
next tokens are issued. -/
structure Readings where
  decodedAt : Instant
  now : Instant
  issuedAt : Instant
deriving DecidableEq

def issued (pair : TokenPair) (csrfToken : String) : IssuedAuthentication where
  accessToken := pair.accessToken
  expiresAt := pair.accessExpiresAt
  refreshToken := pair.refreshToken
  csrfToken

variable (env : Env)

/-- The row of a new session. -/
def newSession (readings : Readings) (draw : Draw) (userId sessionId : Uuid) : AuthSession :=
  let pair := env.issue draw readings.issuedAt userId sessionId
  { id := sessionId
    userId
    refreshJtiHash := env.hash pair.refreshJti
    csrfTokenHash := env.hash draw.csrfToken
    expiresAt := pair.refreshExpiresAt
    revokedAt := none
    createdAt := readings.now
    rotatedAt := none }

/-- `createSession`, with the check of the user that a login makes. -/
def createSession (readings : Readings) (draw : Draw) (userId sessionId : Uuid) :
    Tx IssuedAuthentication := do
  let user ← found ((← get).user? userId) .invalidCredentials
  require (user.status = .active) .invalidCredentials
  let pair := env.issue draw readings.issuedAt userId sessionId
  modify fun s ↦ { s with
    sessions := s.sessions ++ [newSession env readings draw userId sessionId] }
  return issued pair draw.csrfToken

/-- Whether the token identifier and the CSRF token are the current ones of the session. -/
def matchesSession (tokenId csrfToken : Option String) (session : AuthSession) : Bool :=
  (tokenId.any fun tokenId ↦ env.matchesHash tokenId session.refreshJtiHash) &&
    csrfToken.any fun csrfToken ↦ env.matchesHash csrfToken session.csrfTokenHash

/-- `AuthenticationService.refresh`. -/
def refresh (readings : Readings) (draw : Draw) (refreshToken csrfToken : Option String) :
    Tx IssuedAuthentication := do
  let refreshToken ← found (refreshToken.filter fun text ↦ !isBlank text) .invalidRefreshToken
  let refreshJwt ← found (env.decodeRefresh readings.decodedAt refreshToken) .invalidRefreshToken
  let sessionId ← found refreshJwt.sessionId .invalidRefreshToken
  let userId ← found refreshJwt.subject .invalidRefreshToken
  let session ← found ((← get).session? sessionId) .invalidRefreshToken
  require (session.isUsableAt readings.now = true ∧ session.userId = userId ∧
    matchesSession env refreshJwt.id csrfToken session = true) .invalidRefreshToken
  let user ← found ((← get).user? userId) .invalidRefreshToken
  require (user.status = .active) .invalidRefreshToken
  let pair := env.issue draw readings.issuedAt userId sessionId
  modify (Store.saveSession (session.rotate (env.hash pair.refreshJti) (env.hash draw.csrfToken)
    pair.refreshExpiresAt readings.now))
  return issued pair draw.csrfToken

/-- The session whose current credentials a logout presents. -/
def loggedOut? (decodedAt : Instant) (refreshToken csrfToken : Option String) (s : Store) :
    Option AuthSession := do
  let refreshToken ← refreshToken.filter fun text ↦ !isBlank text
  let refreshJwt ← env.decodeRefresh decodedAt refreshToken
  let sessionId ← refreshJwt.sessionId
  let session ← s.session? sessionId
  if matchesSession env refreshJwt.id csrfToken session then some session else none

/-- `AuthenticationService.logout`: it never reports whether there was a session to revoke. -/
def logout (readings : Readings) (refreshToken csrfToken : Option String) : Tx Unit := do
  match loggedOut? env readings.decodedAt refreshToken csrfToken (← get) with
  | none => return
  | some session => modify (Store.saveSession (session.revoke readings.now))


/-! ### The requests as transactions -/

/-- The credentials that a client presents to refresh or to log out. -/
@[ext]
structure Credentials where
  refreshToken : String
  csrfToken : String
deriving DecidableEq

def IssuedAuthentication.credentials (answer : IssuedAuthentication) : Credentials :=
  ⟨answer.refreshToken, answer.csrfToken⟩

/-- The conditions under which a refresh is accepted for a session. -/
structure Accepts (s : Store) (decodedAt now : Instant) (presented : Credentials)
    (session : AuthSession) : Prop where
  found : s.session? session.id = some session
  notBlank : isBlank presented.refreshToken = false
  decoded : ∃ jwt, env.decodeRefresh decodedAt presented.refreshToken = some jwt ∧
    jwt.sessionId = some session.id ∧ jwt.subject = some session.userId ∧
    matchesSession env jwt.id (some presented.csrfToken) session = true
  usable : session.isUsableAt now = true
  active : ∃ user, s.user? session.userId = some user ∧ user.status = .active

variable {env}

theorem session?_eq_some {s : Store} {id : Uuid} {session : AuthSession}
    (h : s.session? id = some session) : session ∈ s.sessions ∧ session.id = id := by
  have hid := List.find?_some (p := fun row : AuthSession ↦ decide (row.id = id)) h
  exact ⟨List.mem_of_find?_eq_some h, of_decide_eq_true hid⟩

theorem matchesSession_some {tokenId csrfToken : Option String} {session : AuthSession}
    (h : matchesSession env tokenId csrfToken session = true) :
    ∃ id csrf, tokenId = some id ∧ csrfToken = some csrf ∧
      env.hash id = session.refreshJtiHash ∧ env.hash csrf = session.csrfTokenHash := by
  unfold matchesSession Env.matchesHash at h
  rw [Bool.and_eq_true, Option.any_eq_true, Option.any_eq_true] at h
  obtain ⟨⟨id, rfl, hid⟩, csrf, rfl, hcsrf⟩ := h
  exact ⟨id, csrf, rfl, rfl, of_decide_eq_true hid, of_decide_eq_true hcsrf⟩

/-- A refresh succeeds exactly if it is accepted for a session, which it rotates. -/
theorem returns_refresh {readings : Readings} {draw : Draw}
    {refreshToken csrfToken : Option String} {s s' : Store} {answer : IssuedAuthentication} :
    Returns (refresh env readings draw refreshToken csrfToken) s answer s' ↔
      ∃ presented, refreshToken = some presented.refreshToken ∧
        csrfToken = some presented.csrfToken ∧
        ∃ session, Accepts env s readings.decodedAt readings.now presented session ∧
          answer = issued (env.issue draw readings.issuedAt session.userId session.id)
            draw.csrfToken ∧
          s' = s.saveSession (session.rotate (env.hash draw.refreshJti)
            (env.hash draw.csrfToken) (readings.issuedAt + env.properties.refreshTtl)
            readings.now) := by
  unfold refresh
  simp only [returns_bind, returns_found, returns_get, returns_require, returns_modify,
    returns_pure, and_assoc, exists_and_left, exists_eq_left, exists_const,
    Option.filter_eq_some_iff]
  constructor
  · rintro ⟨text, rfl, hblank, jwt, hjwt, id, hid, userId, hsubject, session, hfound, husable,
      rfl, hmatches, user, huser, hactive, rfl, rfl⟩
    obtain ⟨-, rfl⟩ := session?_eq_some hfound
    obtain ⟨jti, csrf, hjti, rfl, -⟩ := matchesSession_some hmatches
    refine ⟨⟨text, csrf⟩, rfl, rfl, session, ?_, rfl, rfl⟩
    exact ⟨hfound, Bool.not_eq_true' _ ▸ hblank, ⟨jwt, hjwt, hid, hsubject, hmatches⟩, husable,
      user, huser, hactive⟩
  · rintro ⟨presented, rfl, rfl, session, h, rfl, rfl⟩
    obtain ⟨jwt, hjwt, hid, hsubject, hmatches⟩ := h.decoded
    obtain ⟨user, huser, hactive⟩ := h.active
    exact ⟨_, rfl, Bool.not_eq_true' _ ▸ h.notBlank, jwt, hjwt, _, hid, _, hsubject, session,
      h.found, h.usable, rfl, hmatches, user, huser, hactive, rfl, rfl⟩

end WebLens.Auth
