import WebLens.ControlPlane.Captures

/-!
# Session tokens

The tokens of a user session: the claims that `JwtTokenService.issue` signs, the checks that the
refresh decoder of `JwtConfig` makes after the signature, and the hashes that stand for the tokens
in the database. Signing, the verification of a signature and the hash function are parameters;
`Env.Lawful` is what they document.

Instants are in microseconds, as the database keeps them; a token carries whole seconds.
-/

set_option autoImplicit false
set_option relaxedAutoImplicit false

namespace WebLens.Auth

open ControlPlane (isBlank)

abbrev Uuid := ℕ

abbrev Instant := ℕ

abbrev Duration := ℕ

def microsPerSecond : ℕ := 1000000

/-- The configured issuer, audience and lifetimes of the tokens. -/
structure JwtProperties where
  issuer : String
  audience : String
  accessTtl : Duration
  refreshTtl : Duration
  accessTtl_pos : 0 < accessTtl
  accessTtl_lt_refreshTtl : accessTtl < refreshTtl

/-- The claims of a token to sign. -/
structure JwtClaimsSet where
  issuer : String
  audience : List String
  subject : Uuid
  issuedAt : Instant
  notBefore : Instant
  expiresAt : Instant
  id : String
  sessionId : Uuid
  tokenType : String
deriving DecidableEq

/-- A token as the decoder reads it: `subject` and `sessionId` are absent also when their text is
no identifier, and the times are in seconds. -/
structure Jwt where
  issuer : Option String
  audience : List String
  subject : Option Uuid
  issuedAt : Option ℕ
  notBefore : Option ℕ
  expiresAt : Option ℕ
  id : Option String
  sessionId : Option Uuid
  tokenType : Option String
deriving DecidableEq

/-- The token that carries the claims. -/
def JwtClaimsSet.jwt (claims : JwtClaimsSet) : Jwt where
  issuer := some claims.issuer
  audience := claims.audience
  subject := some claims.subject
  issuedAt := some (claims.issuedAt / microsPerSecond)
  notBefore := some (claims.notBefore / microsPerSecond)
  expiresAt := some (claims.expiresAt / microsPerSecond)
  id := some claims.id
  sessionId := some claims.sessionId
  tokenType := some claims.tokenType

/-- The libraries that sign, verify and hash. -/
structure Env where
  properties : JwtProperties
  /-- The signed text of the claims. -/
  encode : JwtClaimsSet → String
  /-- The token of a text whose signature verifies. -/
  decode : String → Option Jwt
  /-- The hexadecimal SHA-256 digest of a text. -/
  hash : String → String

/-- What the libraries document, and the hash function taken as injective. -/
structure Env.Lawful (env : Env) : Prop where
  decode_encode : ∀ claims, env.decode (env.encode claims) = some claims.jwt
  encode_not_blank : ∀ claims, isBlank (env.encode claims) = false
  hash_injective : Function.Injective env.hash

/-! ### The refresh decoder -/

/-- The clock skew that the timestamp validator tolerates. -/
def clockSkew : Duration := 60 * microsPerSecond

/-- The timestamp validator: not expired, and not before its time. -/
def hasValidTimes (now : Instant) (jwt : Jwt) : Bool :=
  (jwt.expiresAt.all fun expiresAt ↦
      decide (now ≤ expiresAt * microsPerSecond + clockSkew)) &&
    jwt.notBefore.all fun notBefore ↦
      decide (notBefore * microsPerSecond ≤ now + clockSkew)

/-- `hasRequiredClaims`. -/
def hasRequiredClaims (jwt : Jwt) : Bool :=
  (jwt.id.any fun id ↦ !isBlank id) && jwt.subject.isSome && jwt.issuedAt.isSome &&
    jwt.expiresAt.isSome && jwt.notBefore.isSome && jwt.sessionId.isSome

/-- The validators of a decoder of tokens of a type. -/
def isValidJwt (properties : JwtProperties) (expectedType : String) (now : Instant) (jwt : Jwt) :
    Bool :=
  hasValidTimes now jwt && decide (jwt.issuer = some properties.issuer) &&
    decide (properties.audience ∈ jwt.audience) &&
    decide (jwt.tokenType = some expectedType) && hasRequiredClaims jwt

namespace Env

variable (env : Env)

/-- `JwtTokenService.decodeRefresh`. -/
def decodeRefresh (now : Instant) (token : String) : Option Jwt :=
  (env.decode token).filter (isValidJwt env.properties "refresh" now)

/-- `TokenHashingService.matches`. -/
def matchesHash (rawValue expectedHash : String) : Bool :=
  decide (env.hash rawValue = expectedHash)

end Env

/-! ### Issuing -/

/-- What a transaction draws at random: the identifiers of the two tokens and the CSRF token. -/
structure Draw where
  accessJti : String
  refreshJti : String
  csrfToken : String
deriving DecidableEq

/-- The tokens that are issued together. -/
structure TokenPair where
  accessToken : String
  accessExpiresAt : Instant
  refreshToken : String
  refreshJti : String
  refreshExpiresAt : Instant
deriving DecidableEq

/-- The claims of a token of a type that is issued for a session. -/
def claimsOf (properties : JwtProperties) (userId sessionId : Uuid) (tokenId tokenType : String)
    (issuedAt expiresAt : Instant) : JwtClaimsSet where
  issuer := properties.issuer
  audience := [properties.audience]
  subject := userId
  issuedAt
  notBefore := issuedAt
  expiresAt
  id := tokenId
  sessionId
  tokenType

/-- `JwtTokenService.issue`. -/
def Env.issue (env : Env) (draw : Draw) (issuedAt : Instant) (userId sessionId : Uuid) :
    TokenPair where
  accessToken := env.encode (claimsOf env.properties userId sessionId draw.accessJti "access"
    issuedAt (issuedAt + env.properties.accessTtl))
  accessExpiresAt := issuedAt + env.properties.accessTtl
  refreshToken := env.encode (claimsOf env.properties userId sessionId draw.refreshJti "refresh"
    issuedAt (issuedAt + env.properties.refreshTtl))
  refreshJti := draw.refreshJti
  refreshExpiresAt := issuedAt + env.properties.refreshTtl

/-! ### What the decoder accepts of the tokens that were issued -/

/-- Whole seconds and the tolerated skew leave room for what a token loses to rounding. -/
theorem expiry_le {now expiresAt : ℕ} (h : now < expiresAt) :
    now ≤ expiresAt / microsPerSecond * microsPerSecond + clockSkew := by
  unfold clockSkew microsPerSecond
  omega

theorem notBefore_le {issuedAt now : ℕ} (h : issuedAt ≤ now) :
    issuedAt / microsPerSecond * microsPerSecond ≤ now + clockSkew := by
  unfold clockSkew microsPerSecond
  omega

theorem hasValidTimes_of_le {now : Instant} {jwt : Jwt} {expiresAt notBefore : ℕ}
    (hexpiresAt : jwt.expiresAt = some expiresAt) (hnotBefore : jwt.notBefore = some notBefore)
    (hle : now ≤ expiresAt * microsPerSecond + clockSkew)
    (hge : notBefore * microsPerSecond ≤ now + clockSkew) : hasValidTimes now jwt = true := by
  unfold hasValidTimes
  rw [hexpiresAt, hnotBefore, Option.all_some, Option.all_some, decide_eq_true hle,
    decide_eq_true hge]
  rfl

section

variable {env : Env} (hlaws : env.Lawful)

include hlaws

/-- An access token is not a refresh token. -/
theorem decodeRefresh_access (now : Instant) (draw : Draw) (issuedAt : Instant)
    (userId sessionId : Uuid) :
    env.decodeRefresh now (env.issue draw issuedAt userId sessionId).accessToken = none := by
  unfold Env.decodeRefresh Env.issue
  rw [hlaws.decode_encode, Option.filter_some, if_neg]
  simp [isValidJwt, claimsOf, JwtClaimsSet.jwt]

/-- What the refresh decoder reads of an issued refresh token are its claims. -/
theorem decodeRefresh_refresh {now : Instant} {draw : Draw} {issuedAt : Instant}
    {userId sessionId : Uuid} {jwt : Jwt}
    (h : env.decodeRefresh now (env.issue draw issuedAt userId sessionId).refreshToken =
      some jwt) :
    jwt.id = some draw.refreshJti ∧ jwt.subject = some userId ∧
      jwt.sessionId = some sessionId := by
  unfold Env.decodeRefresh Env.issue at h
  rw [hlaws.decode_encode, Option.filter_eq_some_iff, Option.some.injEq] at h
  obtain ⟨rfl, -⟩ := h
  exact ⟨rfl, rfl, rfl⟩

/-- An issued refresh token is read as long as its session lasts. -/
theorem decodeRefresh_of_lt {now : Instant} {draw : Draw} {issuedAt : Instant}
    (userId sessionId : Uuid) (hjti : isBlank draw.refreshJti = false) (hissued : issuedAt ≤ now)
    (hexpires : now < issuedAt + env.properties.refreshTtl) :
    ∃ jwt, env.decodeRefresh now (env.issue draw issuedAt userId sessionId).refreshToken =
      some jwt := by
  refine ⟨_, Option.filter_eq_some_iff.2 ⟨hlaws.decode_encode _, ?_⟩⟩
  have htimes : hasValidTimes now (claimsOf env.properties userId sessionId draw.refreshJti
      "refresh" issuedAt (issuedAt + env.properties.refreshTtl)).jwt = true :=
    hasValidTimes_of_le rfl rfl (expiry_le hexpires) (notBefore_le hissued)
  unfold isValidJwt
  rw [htimes]
  simp [claimsOf, JwtClaimsSet.jwt, hasRequiredClaims, hjti]

end

end WebLens.Auth
