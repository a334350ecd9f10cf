import Mathlib.Logic.Encodable.Basic
import Mathlib.Logic.Equiv.List
import Mathlib.Tactic.DeriveEncodable
import WebLens.Auth.System

/-!
# Refresh tokens are single use

The invariant is that a session row holds the hashes of the credentials issued last for it, and
that the accepted credentials of a session are the issued ones without the last. A request that is
accepted presents a token that was given out; its identifier is that of the last issued one, and
identifiers are never given out twice, so it presents the last credentials.
-/

set_option autoImplicit false
set_option relaxedAutoImplicit false

namespace WebLens.Auth

open Lib Lib.Transaction
open ControlPlane (isBlank)

variable {env : Env}

/-! ### The log after a request -/

section Log

variable (log : List Event)

@[simp]
theorem answers_append (event : Event) :
    answers (log ++ [event]) = answers log ++ event.answer?.toList := by
  unfold answers
  rw [List.filterMap_append]
  cases h : event.answer? <;> simp [h]

@[simp]
theorem accepted_append (event : Event) :
    accepted (log ++ [event]) = accepted log ++ event.refreshedWith?.toList := by
  unfold accepted
  rw [List.filterMap_append]
  cases h : event.refreshedWith? <;> simp [h]

theorem issuedFor_append (event : Event) (sessionId : Uuid) :
    issuedFor env (log ++ [event]) sessionId = issuedFor env log sessionId ++
      (event.answer?.toList.map IssuedAuthentication.credentials).filter (env.isFor sessionId) := by
  unfold issuedFor
  rw [answers_append, List.map_append, List.filter_append]

theorem acceptedFor_append (event : Event) (sessionId : Uuid) :
    acceptedFor env (log ++ [event]) sessionId = acceptedFor env log sessionId ++
      event.refreshedWith?.toList.filter (env.isFor sessionId) := by
  unfold acceptedFor
  rw [accepted_append, List.filter_append]

end Log

/-! ### The invariant -/

/-- The credentials that a transaction drew for a session. -/
def credentialsOf (env : Env) (draw : Draw) (issuedAt : Instant) (userId sessionId : Uuid) :
    Credentials :=
  (issued (env.issue draw issuedAt userId sessionId) draw.csrfToken).credentials

/-- The session holds the hashes of the credentials issued last. -/
def IsCurrent (env : Env) (issuedFor : List Credentials) (clock : Instant)
    (session : AuthSession) : Prop :=
  ∃ draw issuedAt,
    issuedFor.getLast? = some (credentialsOf env draw issuedAt session.userId session.id) ∧
      session.refreshJtiHash = env.hash draw.refreshJti ∧
      session.csrfTokenHash = env.hash draw.csrfToken ∧
      session.expiresAt = issuedAt + env.properties.refreshTtl ∧ issuedAt ≤ clock ∧
      isBlank draw.refreshJti = false

/-- What holds of every state that the system reaches. -/
structure System.Sound (env : Env) (sys : System) : Prop where
  unique : (sys.store.sessions.map AuthSession.id).Nodup
  current : ∀ session ∈ sys.store.sessions,
    IsCurrent env (issuedFor env sys.log session.id) sys.clock session
  origin : ∀ answer ∈ answers sys.log, ∃ draw issuedAt, ∃ session ∈ sys.store.sessions,
    answer = issued (env.issue draw issuedAt session.userId session.id) draw.csrfToken
  jtis : ((answers sys.log).map fun answer ↦ env.jtiOf answer.refreshToken).Nodup
  chain : ∀ sessionId,
    acceptedFor env sys.log sessionId = (issuedFor env sys.log sessionId).dropLast
  once : ((accepted sys.log).map Credentials.refreshToken).Nodup
  named : ∀ presented ∈ accepted sys.log, ∃ sessionId, env.isFor sessionId presented = true
  revoked : ∀ presented, Event.loggedOut presented ∈ sys.log → ∃ session ∈ sys.store.sessions,
    env.isFor session.id presented = true ∧ session.revokedAt ≠ none

section

variable (hlaws : env.Lawful)

include hlaws

@[simp]
theorem isFor_credentialsOf (draw : Draw) (issuedAt : Instant) (userId sessionId id : Uuid) :
    env.isFor id (credentialsOf env draw issuedAt userId sessionId) = true ↔ sessionId = id := by
  unfold Env.isFor Env.sessionOf credentialsOf issued Env.issue IssuedAuthentication.credentials
  rw [hlaws.decode_encode, decide_eq_true_iff, Option.bind_some]
  exact Option.some_inj

@[simp]
theorem jtiOf_issue (draw : Draw) (issuedAt : Instant) (userId sessionId : Uuid) :
    env.jtiOf (env.issue draw issuedAt userId sessionId).refreshToken = some draw.refreshJti := by
  unfold Env.jtiOf Env.issue
  rw [hlaws.decode_encode, Option.bind_some]
  rfl

/-- A request that presents the identifiers behind the hashes of a session presents the credentials
issued last for it. -/
theorem System.Sound.presents {sys : System} (h : sys.Sound env) {presented : Credentials}
    (hpresentable : sys.Presentable env presented.refreshToken) {decodedAt : Instant} {jwt : Jwt}
    (hjwt : env.decodeRefresh decodedAt presented.refreshToken = some jwt)
    {session : AuthSession} (hsession : session ∈ sys.store.sessions)
    (hmatches : matchesSession env jwt.id (some presented.csrfToken) session = true) :
    (issuedFor env sys.log session.id).getLast? = some presented := by
  obtain ⟨draw, issuedAt, hlast, hjti, hcsrf, -⟩ := h.current session hsession
  obtain ⟨id, csrf, hid', hcsrf', hhash, hcsrfHash⟩ := matchesSession_some hmatches
  rcases hpresentable with hnone | ⟨answer, hanswer, htoken⟩
  · rw [Env.decodeRefresh, hnone] at hjwt
    cases hjwt
  · obtain ⟨draw', issuedAt', session', hsession', rfl⟩ := h.origin answer hanswer
    rcases htoken with htoken | htoken
    · rw [htoken, issued] at hjwt
      obtain ⟨hjti', -, -⟩ := decodeRefresh_refresh hlaws hjwt
      have hdraw : draw'.refreshJti = draw.refreshJti := by
        apply hlaws.hash_injective
        rw [← hjti, ← hhash, ← Option.some_inj.1 (hjti'.symm.trans hid')]
      obtain ⟨last, hmem, heq⟩ := List.mem_map.1
        (List.mem_of_mem_filter (List.mem_of_getLast? hlast))
      have hlastToken : last.refreshToken =
          (env.issue draw issuedAt session.userId session.id).refreshToken :=
        congrArg Credentials.refreshToken heq
      have hsame : last.refreshToken = presented.refreshToken := by
        have hjtis : env.jtiOf last.refreshToken = env.jtiOf (issued (env.issue draw' issuedAt'
            session'.userId session'.id) draw'.csrfToken).refreshToken := by
          rw [hlastToken, issued, jtiOf_issue hlaws, jtiOf_issue hlaws, hdraw]
        rw [List.inj_on_of_nodup_map h.jtis hmem hanswer hjtis, htoken]
      rw [hlast, ← heq]
      refine congrArg some (Credentials.ext hsame ?_)
      rw [heq]
      refine hlaws.hash_injective ?_
      show env.hash draw.csrfToken = _
      rw [← hcsrf, ← hcsrfHash, Option.some_inj.1 hcsrf']
    · rw [htoken, issued, decodeRefresh_access hlaws] at hjwt
      cases hjwt

end

/-! ### Steps keep the invariant -/

section

variable {s : Store} {row : AuthSession}

/-- A row that is saved over one with its key leaves the keys as they are. -/
theorem map_id_saveSession (s : Store) (row : AuthSession) :
    (s.saveSession row).sessions.map AuthSession.id = s.sessions.map AuthSession.id := by
  unfold Store.saveSession
  exact Table.map_update _ fun other _ hother ↦ (of_decide_eq_true hother).symm

theorem mem_saveSession {other : AuthSession} (h : other ∈ (s.saveSession row).sessions) :
    other = row ∨ other ∈ s.sessions ∧ other.id ≠ row.id := by
  obtain ⟨before, hbefore, rfl⟩ := Table.mem_update.1 h
  split_ifs with hsel
  · exact .inl rfl
  · exact .inr ⟨hbefore, of_decide_eq_false (Bool.eq_false_iff.2 hsel)⟩

/-- Saving a row leaves every row behind, or the saved one in its place. -/
theorem exists_mem_saveSession (row : AuthSession) {other : AuthSession}
    (h : other ∈ s.sessions) :
    ∃ other' ∈ (s.saveSession row).sessions,
      other' = other ∨ other.id = row.id ∧ other' = row := by
  by_cases hid : other.id = row.id
  · exact ⟨row, Table.mem_update_of_sel h (decide_eq_true hid), .inr ⟨hid, rfl⟩⟩
  · exact ⟨other, Table.mem_update_of_not h (decide_eq_false hid), .inl rfl⟩

end

theorem revoke_revokedAt (now : Instant) (session : AuthSession) :
    (session.revoke now).revokedAt ≠ none := by
  unfold AuthSession.revoke
  cases session.revokedAt <;> simp

theorem IsCurrent.mono {issued : List Credentials} {clock clock' : Instant}
    {session : AuthSession} (h : IsCurrent env issued clock session) (hle : clock ≤ clock') :
    IsCurrent env issued clock' session := by
  obtain ⟨draw, issuedAt, hlast, hjti, hcsrf, hexpires, hissued, hblank⟩ := h
  exact ⟨draw, issuedAt, hlast, hjti, hcsrf, hexpires, Nat.le_trans hissued hle, hblank⟩

/-- Credentials are for one session. -/
theorem Env.isFor_unique {id id' : Uuid} {presented : Credentials}
    (h : env.isFor id presented = true) (h' : env.isFor id' presented = true) : id = id' := by
  unfold Env.isFor at h h'
  exact Option.some_inj.1 ((of_decide_eq_true h).symm.trans (of_decide_eq_true h'))

theorem isFor_of_getLast? {log : List Event} {id : Uuid} {presented : Credentials}
    (h : (issuedFor env log id).getLast? = some presented) : env.isFor id presented = true :=
  List.of_mem_filter (List.mem_of_getLast? h)

/-- The tokens of the credentials issued for a session are distinct. -/
theorem System.Sound.nodup_issuedFor {sys : System} (h : sys.Sound env) (id : Uuid) :
    ((issuedFor env sys.log id).map Credentials.refreshToken).Nodup := by
  have htokens : ((answers sys.log).map IssuedAuthentication.refreshToken).Nodup := by
    refine List.Nodup.of_map env.jtiOf ?_
    rw [List.map_map]
    exact h.jtis
  refine List.Nodup.sublist (List.filter_sublist.map _) ?_
  rw [List.map_map]
  exact htokens

/-- The last credentials of a session were not accepted before. -/
theorem System.Sound.not_accepted {sys : System} (h : sys.Sound env) {id : Uuid}
    {presented : Credentials} (hlast : (issuedFor env sys.log id).getLast? = some presented)
    {other : Credentials} (hother : other ∈ accepted sys.log) :
    other.refreshToken ≠ presented.refreshToken := by
  intro heq
  have hfor : env.isFor id other = true := by
    have := isFor_of_getLast? hlast
    unfold Env.isFor at this ⊢
    rwa [heq]
  have hbefore : other ∈ (issuedFor env sys.log id).dropLast := by
    rw [← h.chain id]
    exact List.mem_filter.2 ⟨hother, hfor⟩
  have hnodup := h.nodup_issuedFor id
  rw [← List.dropLast_append_getLast? presented hlast, List.map_append, List.nodup_append]
    at hnodup
  exact hnodup.2.2 _ (List.mem_map_of_mem hbefore) _ (List.mem_singleton_self _) heq

theorem System.Sound.loggedOut {sys : System} (h : sys.Sound env) {now : Instant}
    {presented : Credentials} {session : AuthSession}
    (hlast : (issuedFor env sys.log session.id).getLast? = some presented)
    (hsession : session ∈ sys.store.sessions) (hclock : sys.clock ≤ now) :
    System.Sound env
      ⟨sys.store.saveSession (session.revoke now), now, sys.log ++ [.loggedOut presented]⟩ := by
  have hanswers : answers (sys.log ++ [.loggedOut presented]) = answers sys.log := by
    rw [answers_append]
    exact List.append_nil _
  have haccepted : accepted (sys.log ++ [.loggedOut presented]) = accepted sys.log := by
    rw [accepted_append]
    exact List.append_nil _
  have hkeeps : ∀ other ∈ sys.store.sessions,
      ∃ other' ∈ (sys.store.saveSession (session.revoke now)).sessions,
        other'.id = other.id ∧ other'.userId = other.userId ∧
          (other.revokedAt ≠ none → other'.revokedAt ≠ none) := by
    intro other hother
    obtain ⟨kept, hkept, rfl | ⟨hid, rfl⟩⟩ := exists_mem_saveSession (session.revoke now) hother
    · exact ⟨_, hkept, rfl, rfl, id⟩
    · obtain rfl := Table.eq_of_key_eq h.unique hother hsession hid
      exact ⟨_, hkept, rfl, rfl, fun _ ↦ revoke_revokedAt _ _⟩
  constructor
  case unique =>
    rw [map_id_saveSession]
    exact h.unique
  case current =>
    intro other hother
    show IsCurrent env (issuedFor env (sys.log ++ [.loggedOut presented]) other.id) now other
    unfold issuedFor
    rw [hanswers]
    rcases mem_saveSession hother with rfl | ⟨hother, -⟩
    · exact (h.current session hsession).mono hclock
    · exact (h.current other hother).mono hclock
  case origin =>
    intro answer hanswer
    rw [hanswers] at hanswer
    obtain ⟨draw, issuedAt, other, hother, rfl⟩ := h.origin answer hanswer
    obtain ⟨other', hother', hid, huser, -⟩ := hkeeps other hother
    exact ⟨draw, issuedAt, other', hother', by rw [hid, huser]⟩
  case jtis =>
    rw [hanswers]
    exact h.jtis
  case chain =>
    unfold acceptedFor issuedFor
    rw [hanswers, haccepted]
    exact h.chain
  case once =>
    rw [haccepted]
    exact h.once
  case named =>
    rw [haccepted]
    exact h.named
  case revoked =>
    intro other hother
    rcases List.mem_append.1 hother with hother | hother
    · obtain ⟨session', hsession', hfor, hrevoked⟩ := h.revoked other hother
      obtain ⟨kept, hkept, hid, -, hkeeps⟩ := hkeeps session' hsession'
      exact ⟨kept, hkept, hid ▸ hfor, hkeeps hrevoked⟩
    · obtain rfl := Event.loggedOut.inj (List.mem_singleton.1 hother)
      exact ⟨_, Table.mem_update_of_sel hsession (decide_eq_true rfl),
        isFor_of_getLast? hlast, revoke_revokedAt _ _⟩

theorem System.Sound.quiet {sys : System} (h : sys.Sound env) {store : Store} {clock : Instant}
    (hsessions : store.sessions = sys.store.sessions) (hclock : sys.clock ≤ clock) :
    System.Sound env ⟨store, clock, sys.log⟩ where
  unique := hsessions ▸ h.unique
  current session hsession := (h.current session (hsessions ▸ hsession)).mono hclock
  origin := hsessions ▸ h.origin
  jtis := h.jtis
  chain := h.chain
  once := h.once
  named := h.named
  revoked := hsessions ▸ h.revoked

/-- A system without sessions is sound. -/
theorem System.Sound.init (users : List User) (clock : Instant) :
    System.Sound env ⟨⟨users, []⟩, clock, []⟩ where
  unique := List.nodup_nil
  current _ h := by cases h
  origin _ h := by cases h
  jtis := List.nodup_nil
  chain _ := rfl
  once := List.nodup_nil
  named _ h := by cases h
  revoked _ h := by cases h

section

variable (hlaws : env.Lawful)

include hlaws

/-- A request that gives credentials out appends them to those of their session. -/
theorem issuedFor_issue {log : List Event} {event : Event} {draw : Draw} {issuedAt : Instant}
    {userId sessionId : Uuid} (hevent : event.answer? =
      some (issued (env.issue draw issuedAt userId sessionId) draw.csrfToken)) (id : Uuid) :
    issuedFor env (log ++ [event]) id = issuedFor env log id ++
      if sessionId = id then [credentialsOf env draw issuedAt userId sessionId] else [] := by
  rw [issuedFor_append, hevent]
  refine congrArg _ ?_
  show List.filter _ [credentialsOf env draw issuedAt userId sessionId] = _
  rw [List.filter_singleton]
  simp only [Bool.cond_eq_ite, isFor_credentialsOf hlaws]

/-- A new identifier keeps the identifiers distinct. -/
theorem System.Sound.jtis_issue {sys : System} (h : sys.Sound env) {event : Event} {draw : Draw}
    {issuedAt : Instant} {userId sessionId : Uuid} (hfresh : sys.IsFresh env draw)
    (hevent : event.answer? =
      some (issued (env.issue draw issuedAt userId sessionId) draw.csrfToken)) :
    ((answers (sys.log ++ [event])).map fun answer ↦ env.jtiOf answer.refreshToken).Nodup := by
  rw [answers_append, hevent]
  refine Table.nodup_map_concat h.jtis fun answer hanswer ↦ ?_
  rw [issued, jtiOf_issue hlaws]
  exact hfresh.2 answer hanswer

/-- A session that holds what was just issued for it holds the credentials issued last. -/
theorem isCurrent_issue {log : List Event} {event : Event} {draw : Draw} {session : AuthSession}
    {issuedAt : Instant} (hevent : event.answer? =
      some (issued (env.issue draw issuedAt session.userId session.id) draw.csrfToken))
    (hjti : session.refreshJtiHash = env.hash draw.refreshJti)
    (hcsrf : session.csrfTokenHash = env.hash draw.csrfToken)
    (hexpires : session.expiresAt = issuedAt + env.properties.refreshTtl)
    (hblank : isBlank draw.refreshJti = false) :
    IsCurrent env (issuedFor env (log ++ [event]) session.id) issuedAt session := by
  refine ⟨draw, issuedAt, ?_, hjti, hcsrf, hexpires, Nat.le_refl _, hblank⟩
  rw [issuedFor_issue hlaws hevent, if_pos rfl, List.getLast?_append]
  rfl

theorem System.Sound.created {sys : System} (h : sys.Sound env) {readings : Readings} {draw : Draw}
    {userId sessionId : Uuid} (hfresh : sys.IsFresh env draw)
    (hnew : sys.store.session? sessionId = none) (hclock : sys.clock ≤ readings.issuedAt) :
    System.Sound env
      ⟨{ sys.store with
          sessions := sys.store.sessions ++ [newSession env readings draw userId sessionId] },
        readings.issuedAt,
        sys.log ++ [.created (issued (env.issue draw readings.issuedAt userId sessionId)
          draw.csrfToken)]⟩ := by
  have hother : ∀ session ∈ sys.store.sessions, session.id ≠ sessionId := fun session hsession ↦
    of_decide_eq_false (Bool.eq_false_iff.2 (List.find?_eq_none.1 hnew session hsession))
  have hnone : issuedFor env sys.log sessionId = [] := by
    refine List.filter_eq_nil_iff.2 fun presented hpresented ↦ ?_
    obtain ⟨answer, hanswer, rfl⟩ := List.mem_map.1 hpresented
    obtain ⟨draw', issuedAt', session, hsession, rfl⟩ := h.origin answer hanswer
    exact (isFor_credentialsOf hlaws _ _ _ _ _).not.2 (hother session hsession)
  constructor
  case unique => exact Table.nodup_map_concat h.unique hother
  case current =>
    intro session hsession
    rcases List.mem_append.1 hsession with hsession | hsession
    · rw [issuedFor_issue hlaws rfl, if_neg (hother session hsession).symm, List.append_nil]
      exact (h.current session hsession).mono hclock
    · rw [List.mem_singleton.1 hsession]
      exact isCurrent_issue hlaws rfl rfl rfl rfl hfresh.1
  case origin =>
    intro answer hanswer
    rw [answers_append] at hanswer
    rcases List.mem_append.1 hanswer with hanswer | hanswer
    · obtain ⟨draw', issuedAt', session, hsession, rfl⟩ := h.origin answer hanswer
      exact ⟨draw', issuedAt', session, List.mem_append_left _ hsession, rfl⟩
    · rw [List.mem_singleton.1 hanswer]
      exact ⟨draw, readings.issuedAt, _, List.mem_append_right _ (List.mem_singleton_self _), rfl⟩
  case jtis => exact h.jtis_issue hlaws hfresh rfl
  case chain =>
    intro id
    rw [issuedFor_issue hlaws rfl, acceptedFor_append, h.chain id]
    by_cases hid : sessionId = id
    · rw [if_pos hid, ← hid, hnone]
      rfl
    · rw [if_neg hid, List.append_nil]
      exact List.append_nil _
  case once =>
    rw [accepted_append]
    exact (List.append_nil _).symm ▸ h.once
  case named =>
    rw [accepted_append]
    exact (List.append_nil _).symm ▸ h.named
  case revoked =>
    intro presented hpresented
    rcases List.mem_append.1 hpresented with hpresented | hpresented
    · obtain ⟨session, hsession, hfor, hrevoked⟩ := h.revoked presented hpresented
      exact ⟨session, List.mem_append_left _ hsession, hfor, hrevoked⟩
    · cases List.mem_singleton.1 hpresented

theorem System.Sound.refreshed {sys : System} (h : sys.Sound env) {readings : Readings}
    {draw : Draw} {presented : Credentials} {session : AuthSession}
    (hfresh : sys.IsFresh env draw)
    (hlast : (issuedFor env sys.log session.id).getLast? = some presented)
    (hsession : session ∈ sys.store.sessions) (hclock : sys.clock ≤ readings.issuedAt) :
    System.Sound env
      ⟨sys.store.saveSession (session.rotate (env.hash draw.refreshJti)
          (env.hash draw.csrfToken) (readings.issuedAt + env.properties.refreshTtl)
          readings.now),
        readings.issuedAt,
        sys.log ++ [.refreshed presented
          (issued (env.issue draw readings.issuedAt session.userId session.id)
            draw.csrfToken)]⟩ := by
  constructor
  case unique =>
    rw [map_id_saveSession]
    exact h.unique
  case current =>
    intro other hother
    rcases mem_saveSession hother with rfl | ⟨hother, hid⟩
    · exact isCurrent_issue hlaws rfl rfl rfl rfl hfresh.1
    · have hid : session.id ≠ other.id := Ne.symm hid
      rw [issuedFor_issue hlaws rfl, if_neg hid, List.append_nil]
      exact (h.current other hother).mono hclock
  case origin =>
    intro answer hanswer
    rw [answers_append] at hanswer
    rcases List.mem_append.1 hanswer with hanswer | hanswer
    · obtain ⟨draw', issuedAt', other, hother, rfl⟩ := h.origin answer hanswer
      obtain ⟨other', hother', rfl | ⟨hid, rfl⟩⟩ := exists_mem_saveSession
        (session.rotate (env.hash draw.refreshJti) (env.hash draw.csrfToken)
          (readings.issuedAt + env.properties.refreshTtl) readings.now) hother
      · exact ⟨draw', issuedAt', _, hother', rfl⟩
      · refine ⟨draw', issuedAt', _, hother', ?_⟩
        rw [Table.eq_of_key_eq h.unique hother hsession hid]
        rfl
    · rw [List.mem_singleton.1 hanswer]
      exact ⟨draw, readings.issuedAt, _,
        Table.mem_update_of_sel hsession (decide_eq_true rfl), rfl⟩
  case jtis => exact h.jtis_issue hlaws hfresh rfl
  case chain =>
    intro id
    rw [issuedFor_issue hlaws rfl, acceptedFor_append, h.chain id]
    by_cases hid : session.id = id
    · rw [if_pos hid, List.dropLast_concat, ← hid]
      show _ ++ List.filter (env.isFor session.id) [presented] = _
      rw [List.filter_singleton, isFor_of_getLast? hlast]
      exact List.dropLast_append_getLast? presented hlast
    · rw [if_neg hid, List.append_nil]
      show _ ++ List.filter (env.isFor id) [presented] = _
      have hnot : env.isFor id presented = false :=
        Bool.eq_false_iff.2 fun hfor ↦ hid (Env.isFor_unique (isFor_of_getLast? hlast) hfor)
      rw [List.filter_singleton, hnot]
      exact List.append_nil _
  case once =>
    rw [accepted_append]
    exact Table.nodup_map_concat h.once fun other hother ↦ h.not_accepted hlast hother
  case named =>
    intro other hother
    rw [accepted_append] at hother
    rcases List.mem_append.1 hother with hother | hother
    · exact h.named other hother
    · rw [List.mem_singleton.1 hother]
      exact ⟨session.id, isFor_of_getLast? hlast⟩
  case revoked =>
    intro other hother
    rcases List.mem_append.1 hother with hother | hother
    · obtain ⟨session', hsession', hfor, hrevoked⟩ := h.revoked other hother
      obtain ⟨kept, hkept, rfl | ⟨hid, rfl⟩⟩ := exists_mem_saveSession
        (session.rotate (env.hash draw.refreshJti) (env.hash draw.csrfToken)
          (readings.issuedAt + env.properties.refreshTtl) readings.now) hsession'
      · exact ⟨_, hkept, hfor, hrevoked⟩
      · obtain rfl := Table.eq_of_key_eq h.unique hsession' hsession hid
        exact ⟨_, hkept, hfor, hrevoked⟩
    · cases List.mem_singleton.1 hother

theorem System.Sound.transition {sys sys' : System} (h : sys.Sound env)
    (hstep : Transition env sys sys') : sys'.Sound env := by
  cases hstep with
  | quiet hsessions hclock => exact h.quiet hsessions hclock
  | created hfresh hnew hclock => exact h.created hlaws hfresh hnew hclock
  | refreshed hfresh hpresentable haccepts hnow hclock =>
    obtain ⟨hsession, -⟩ := session?_eq_some haccepts.found
    obtain ⟨jwt, hjwt, -, -, hmatches⟩ := haccepts.decoded
    exact h.refreshed hlaws hfresh (h.presents hlaws hpresentable hjwt hsession hmatches)
      hsession (Nat.le_trans hnow hclock)
  | @loggedOut _ _ presented _ hpresentable hpresents hclock =>
    obtain ⟨other, htoken, hcsrf, hsession, jwt, hjwt, -, hmatches⟩ := loggedOut?_eq_some hpresents
    obtain rfl : presented = other :=
      Credentials.ext (Option.some_inj.1 htoken) (Option.some_inj.1 hcsrf)
    exact h.loggedOut (h.presents hlaws hpresentable hjwt hsession hmatches) hsession hclock

/-- Every state that the system reaches is sound. -/
theorem System.Sound.run {sys : System} (h : sys.Sound env) (actions : List Action) :
    System.Sound env (run (System.step env) sys actions) :=
  run_invariant (fun sys action h ↦ h.transition hlaws (sys.step_transition action)) h actions

/-! ### Sessions that ended -/

omit hlaws in
theorem AuthSession.isUsableAt_antitone {session : AuthSession} {clock clock' : Instant}
    (h : session.isUsableAt clock' = true) (hle : clock ≤ clock') :
    session.isUsableAt clock = true := by
  unfold isUsableAt at h ⊢
  rw [Bool.and_eq_true] at h ⊢
  exact ⟨h.1, decide_eq_true (Nat.lt_of_le_of_lt hle (of_decide_eq_true h.2))⟩

/-- The session was revoked or has expired. -/
def System.HasEnded (sys : System) (id : Uuid) : Prop :=
  ∃ session ∈ sys.store.sessions, session.id = id ∧ session.isUsableAt sys.clock = false

/-- An ended session stays so, and no refresh is accepted for it. -/
theorem System.Sound.hasEnded {sys sys' : System} (h : sys.Sound env)
    (hstep : Transition env sys sys') {id : Uuid} (hended : sys.HasEnded id) :
    sys'.HasEnded id ∧ acceptedFor env sys'.log id = acceptedFor env sys.log id := by
  obtain ⟨session, hsession, rfl, hunusable⟩ := hended
  have hstill : ∀ {clock}, sys.clock ≤ clock → session.isUsableAt clock = false := by
    intro clock hle
    rw [Bool.eq_false_iff] at hunusable ⊢
    exact fun husable ↦ hunusable (AuthSession.isUsableAt_antitone husable hle)
  cases hstep with
  | quiet hsessions hclock => exact ⟨⟨session, hsessions ▸ hsession, rfl, hstill hclock⟩, rfl⟩
  | created hfresh hnew hclock =>
    refine ⟨⟨session, List.mem_append_left _ hsession, rfl, hstill hclock⟩, ?_⟩
    rw [acceptedFor_append]
    exact List.append_nil _
  | @refreshed readings draw presented other hfresh hpresentable haccepts hnow hclock =>
    obtain ⟨hother, -⟩ := session?_eq_some haccepts.found
    obtain ⟨jwt, hjwt, -, -, hmatches⟩ := haccepts.decoded
    have hlast := h.presents hlaws hpresentable hjwt hother hmatches
    have hne : session.id ≠ other.id := by
      intro heq
      obtain rfl := Table.eq_of_key_eq h.unique hsession hother heq
      exact Bool.false_ne_true ((hstill hnow).symm.trans haccepts.usable)
    constructor
    · exact ⟨session, Table.mem_update_of_not hsession (decide_eq_false hne), rfl,
        hstill (Nat.le_trans hnow hclock)⟩
    · rw [acceptedFor_append]
      have hnot : env.isFor session.id presented = false :=
        Bool.eq_false_iff.2 fun hfor ↦ hne (Env.isFor_unique hfor (isFor_of_getLast? hlast))
      show _ ++ List.filter _ [presented] = _
      rw [List.filter_singleton, hnot]
      exact List.append_nil _
  | @loggedOut decodedAt now presented other hpresentable hpresents hclock =>
    constructor
    · obtain ⟨kept, hkept, rfl | ⟨hid, rfl⟩⟩ :=
        exists_mem_saveSession (other.revoke now) hsession
      · exact ⟨_, hkept, rfl, hstill hclock⟩
      · refine ⟨_, hkept, hid.symm, ?_⟩
        unfold AuthSession.isUsableAt
        rw [Option.isNone_eq_false_iff.2 (Option.isSome_iff_ne_none.2 (revoke_revokedAt _ _)),
          Bool.false_and]
    · rw [acceptedFor_append]
      exact List.append_nil _

/-! ### Single use -/

/-- A refresh with the credentials is accepted now. -/
def System.Acceptable (env : Env) (sys : System) (presented : Credentials) : Prop :=
  ∃ draw answer s', Returns (refresh env ⟨sys.clock, sys.clock, sys.clock⟩ draw
    (some presented.refreshToken) (some presented.csrfToken)) sys.store answer s'

/-- The session lasts and its user may use it. -/
def System.IsLive (sys : System) (session : AuthSession) : Prop :=
  session.isUsableAt sys.clock = true ∧
    ∃ user, sys.store.user? session.userId = some user ∧ user.status = .active

omit hlaws in
theorem System.acceptable_iff {sys : System} {presented : Credentials} :
    sys.Acceptable env presented ↔
      ∃ session, Accepts env sys.store sys.clock sys.clock presented session := by
  unfold Acceptable
  simp only [returns_refresh, Option.some.injEq]
  constructor
  · rintro ⟨_, _, _, presented', htoken, hcsrf, session, haccepts, -⟩
    obtain rfl := Credentials.ext htoken hcsrf
    exact ⟨session, haccepts⟩
  · rintro ⟨session, haccepts⟩
    exact ⟨⟨"", "", ""⟩, _, _, presented, rfl, rfl, session, haccepts, rfl, rfl⟩

/-- The credentials issued last for a live session are those that it accepts. -/
theorem System.Sound.acceptable {sys : System} (h : sys.Sound env) {session : AuthSession}
    (hsession : session ∈ sys.store.sessions) (hlive : sys.IsLive session) :
    ∃ pair : Credentials, sys.Presentable env pair.refreshToken ∧
      ∀ presented : Credentials, sys.Presentable env presented.refreshToken →
        (env.isFor session.id presented = true ∧ sys.Acceptable env presented ↔
          presented = pair) := by
  obtain ⟨draw, issuedAt, hlast, hjti, hcsrf, hexpires, hissued, hblank⟩ :=
    h.current session hsession
  have husable := hlive.1
  unfold AuthSession.isUsableAt at husable
  rw [Bool.and_eq_true] at husable
  obtain ⟨jwt, hjwt⟩ := decodeRefresh_of_lt hlaws session.userId session.id hblank hissued
    (hexpires ▸ of_decide_eq_true husable.2)
  obtain ⟨hid, hsubject, hsid⟩ := decodeRefresh_refresh hlaws hjwt
  refine ⟨credentialsOf env draw issuedAt session.userId session.id, .inr ?_,
    fun presented hpresentable ↦ ⟨?_, ?_⟩⟩
  · obtain ⟨answer, hanswer, heq⟩ := List.mem_map.1
      (List.mem_of_mem_filter (List.mem_of_getLast? hlast))
    exact ⟨answer, hanswer, .inl (congrArg Credentials.refreshToken heq.symm)⟩
  · rintro ⟨hfor, hacceptable⟩
    obtain ⟨other, haccepts⟩ := System.acceptable_iff.1 hacceptable
    obtain ⟨hother, -⟩ := session?_eq_some haccepts.found
    obtain ⟨jwt', hjwt', -, -, hmatches⟩ := haccepts.decoded
    have hpresents := h.presents hlaws hpresentable hjwt' hother hmatches
    rw [← Env.isFor_unique hfor (isFor_of_getLast? hpresents), hlast] at hpresents
    exact (Option.some_inj.1 hpresents).symm
  · rintro rfl
    refine ⟨isFor_of_getLast? hlast, System.acceptable_iff.2 ⟨session, ?_⟩⟩
    constructor
    case found => exact Table.find?_key h.unique hsession
    case notBlank => exact hlaws.encode_not_blank _
    case usable => exact hlive.1
    case active => exact hlive.2
    case decoded =>
      refine ⟨jwt, hjwt, hsid, hsubject, ?_⟩
      unfold matchesSession Env.matchesHash
      rw [hid, hjti, hcsrf, Option.any_some, Option.any_some, Bool.and_eq_true]
      exact ⟨decide_eq_true rfl, decide_eq_true rfl⟩

omit hlaws in
/-- A refresh or a logout that is not recorded as accepted leaves the store as it was. -/
theorem System.store_of_rejected (sys : System) {action : Action}
    (haction : ∀ user, action ≠ .setUser user) (hlog : (sys.step env action).log = sys.log) :
    (sys.step env action).store = sys.store := by
  have hnot : ∀ (log : List Event) event, log ++ [event] ≠ log := fun log event h ↦
    List.cons_ne_nil event [] (List.append_right_eq_self.1 h)
  cases action with
  | createSession wait work draw userId sessionId =>
    unfold step at hlog ⊢
    dsimp only at hlog ⊢
    split_ifs at hlog ⊢ with hguard
    · rcases commit_cases (Auth.createSession env (sys.readings sys.clock wait work) draw userId
        sessionId) sys.store with ⟨answer, store, heq, -⟩ | ⟨error, heq⟩
      · rw [heq] at hlog
        exact absurd hlog (hnot _ _)
      · rw [heq]
    · rfl
  | refresh decodedAt wait work draw refreshToken csrfToken =>
    unfold step at hlog ⊢
    dsimp only at hlog ⊢
    split_ifs at hlog ⊢ with hguard
    · rcases commit_cases (Auth.refresh env (sys.readings decodedAt wait work) draw refreshToken
        csrfToken) sys.store with ⟨answer, store, heq, -⟩ | ⟨error, heq⟩
      · rw [heq] at hlog
        exact absurd hlog (hnot _ _)
      · rw [heq]
    · rfl
  | logout decodedAt wait refreshToken csrfToken =>
    unfold step at hlog ⊢
    dsimp only at hlog ⊢
    split_ifs at hlog ⊢ with hguard
    · rw [commit_logout] at hlog ⊢
      cases hpresents : loggedOut? env decodedAt refreshToken csrfToken sys.store with
      | none =>
        simp only [readings, hpresents]
      | some session =>
        rw [hpresents] at hlog
        exact absurd hlog (hnot _ _)
    · rfl
  | setUser user => exact absurd rfl (haction user)
  | tick time => rfl

end

/-! ### Stand-ins for the libraries -/

instance encodableChar : Encodable Char :=
  .ofLeftInverse Char.toNat Char.ofNat Char.ofNat_toNat

instance encodableString : Encodable String :=
  .ofLeftInverse String.toList String.ofList fun _ ↦ String.ofList_toList

deriving instance Encodable for JwtClaimsSet

/-- Tokens are their claims as a number, written in unary, and a text is its own hash. -/
def Env.sample : Env where
  properties :=
    { issuer := "weblens-api"
      audience := "weblens-web"
      accessTtl := 900 * microsPerSecond
      refreshTtl := 604800 * microsPerSecond
      accessTtl_pos := by decide
      accessTtl_lt_refreshTtl := by decide }
  encode claims := String.ofList (List.replicate (Encodable.encode claims + 1) 'x')
  decode text :=
    (Encodable.decode (text.toList.length - 1)).map fun claims : JwtClaimsSet ↦ claims.jwt
  hash := id

theorem Env.sample_lawful : Env.sample.Lawful where
  decode_encode claims := by
    unfold sample
    dsimp only
    rw [String.toList_ofList, List.length_replicate, Nat.add_sub_cancel, Encodable.encodek]
    rfl
  encode_not_blank claims := by
    unfold sample isBlank
    dsimp only
    rw [String.toList_ofList, List.replicate_succ, List.all_cons]
    rfl
  hash_injective := Function.injective_id

/-! ### The theorem -/

/-- A system of sessions from the first login on: a live session accepts exactly one pair of
credentials; no refresh token is accepted twice, and each refresh of a session presents what was
issued for it just before; a session that was logged out or has expired accepts nothing any more;
and a rejected request changes nothing. -/
theorem refresh_tokens_single_use (env : Env) (hlaws : env.Lawful) (users : List User)
    (clock : Instant) (actions : List Action) :
    let sys := run (System.step env) ⟨⟨users, []⟩, clock, []⟩ actions
    (∀ session ∈ sys.store.sessions, sys.IsLive session →
      ∃ pair : Credentials, sys.Presentable env pair.refreshToken ∧
        ∀ presented : Credentials, sys.Presentable env presented.refreshToken →
          (env.isFor session.id presented = true ∧ sys.Acceptable env presented ↔
            presented = pair)) ∧
    ((accepted sys.log).map Credentials.refreshToken).Nodup ∧
    (∀ (sessionId : Uuid) (k : ℕ) (presented : Credentials),
      (acceptedFor env sys.log sessionId)[k]? = some presented →
      (issuedFor env sys.log sessionId)[k]? = some presented) ∧
    (∀ presented, Event.loggedOut presented ∈ sys.log →
      ∃ id, env.isFor id presented = true ∧ sys.HasEnded id) ∧
    (∀ id, sys.HasEnded id → ∀ more : List Action,
      acceptedFor env (run (System.step env) sys more).log id = acceptedFor env sys.log id) ∧
    ∀ action, (∀ user, action ≠ .setUser user) → (sys.step env action).log = sys.log →
      (sys.step env action).store = sys.store := by
  intro sys
  have h : sys.Sound env := (System.Sound.init users clock).run hlaws actions
  refine ⟨?_, h.once, ?_, ?_, ?_, fun action ↦ sys.store_of_rejected⟩
  · exact fun session hsession hlive ↦ h.acceptable hlaws hsession hlive
  · intro sessionId k presented hk
    rw [h.chain sessionId, List.dropLast_eq_take, List.getElem?_take] at hk
    split_ifs at hk
    exact hk
  · intro presented hpresented
    obtain ⟨session, hsession, hfor, hrevoked⟩ := h.revoked presented hpresented
    refine ⟨session.id, hfor, session, hsession, rfl, ?_⟩
    unfold AuthSession.isUsableAt
    rw [Option.isNone_eq_false_iff.2 (Option.isSome_iff_ne_none.2 hrevoked), Bool.false_and]
  · intro id hended more
    have hstep : ∀ (s : System) action, s.Sound env → ∀ id, s.HasEnded id →
        (s.step env action).HasEnded id ∧
          acceptedFor env (s.step env action).log id = acceptedFor env s.log id :=
      fun s action hs id hended ↦ hs.hasEnded hlaws (s.step_transition action) hended
    have hrun := run_relation
      (P := System.Sound env) (R := fun s s' ↦ ∀ id, s.HasEnded id →
        s'.HasEnded id ∧ acceptedFor env s'.log id = acceptedFor env s.log id)
      (fun s action hs ↦ hs.transition hlaws (s.step_transition action)) hstep
      (fun s id hended ↦ ⟨hended, rfl⟩)
      (fun h₁ h₂ id hended ↦ ⟨(h₂ id (h₁ id hended).1).1,
        (h₂ id (h₁ id hended).1).2.trans (h₁ id hended).2⟩) h more
    exact (hrun id hended).2

/-- A login, and a refresh with what it gave out. -/
def sampleRun : List Action :=
  [.createSession 0 0 ⟨"a-1", "r-1", "c-1"⟩ 1 7,
    .refresh 5 5 0 ⟨"a-2", "r-2", "c-2"⟩
      (some (Env.sample.issue ⟨"a-1", "r-1", "c-1"⟩ 0 1 7).refreshToken) (some "c-1")]

theorem refresh_tokens_single_use_sample :
    ((accepted (run (System.step Env.sample) ⟨⟨[⟨1, .active⟩], []⟩, 0, []⟩ sampleRun).log).map
      Credentials.refreshToken).Nodup :=
  (refresh_tokens_single_use Env.sample Env.sample_lawful [⟨1, .active⟩] 0 sampleRun).2.1

end WebLens.Auth
