import NoizuMcp.Foundation.Table
import NoizuMcp.Protocol.Json

/-!
# Records of the authorization server's store

The structs that the store callbacks take and return
(`Noizu.MCP.Auth.Server.Store`), with their fields and defaults. A raw
credential (`code`, `token`) is set on the way in and never stored.

Times are instants in microseconds; `expired` is the adapters' comparison
against the clock.
-/

set_option autoImplicit false

namespace NoizuMcp.Auth

open Foundation Protocol

/-- An instant, in microseconds. -/
abbrev DateTime := Int

/-- `DateTime.add(at, n, :second)`. -/
def DateTime.addSeconds (t : DateTime) (n : Nat) : DateTime := t + (n : Int) * 1000000

/-- `System.system_time(:second)` at an instant. -/
def DateTime.toUnix (t : DateTime) : Int := t / 1000000

/-- `DateTime.from_unix!/1`. -/
def DateTime.ofUnix (seconds : Int) : DateTime := seconds * 1000000

/-- `expired?/1`: the clock is not before the instant; no instant never expires. -/
def expired (now : DateTime) : Option DateTime → Bool
  | none => false
  | some t => decide (t ≤ now)

@[simp] theorem expired_some {now t : DateTime} : expired now (some t) = true ↔ t ≤ now := by
  simp [expired]

theorem expired_mono {now later : DateTime} (h : now ≤ later) {t : Option DateTime}
    (ht : expired now t = true) : expired later t = true := by
  cases t with
  | none => exact ht
  | some =>
    rw [expired_some] at ht ⊢
    exact Int.le_trans ht h

/-- How a client came to be known. -/
inductive ClientIdKind where
  | registered
  | cimd
  | preconfigured
  deriving DecidableEq, Repr

/-- An OAuth client: the fields the endpoints read. -/
structure Client where
  clientId : String
  clientIdKind : ClientIdKind := .registered
  secretHash : Option String := none
  tokenEndpointAuthMethod : String := "none"
  redirectUris : List String := []
  grantTypes : List String := ["authorization_code", "refresh_token"]
  scope : List String := []
  disabledAt : Option DateTime := none
  deriving DecidableEq

/-- A pending authorization code. -/
structure AuthorizationCode where
  code : Option String := none
  clientId : String
  subject : String
  redirectUri : Option String := none
  scope : List String := []
  resource : Option String := none
  codeChallenge : Option String := none
  codeChallengeMethod : Option String := some "S256"
  nonce : Option String := none
  refreshFamilyId : Option String := none
  upstreamRef : Option Json := none
  expiresAt : Option DateTime := none
  usedAt : Option DateTime := none
  insertedAt : Option DateTime := none
  deriving DecidableEq

/-- A refresh token. `familyId` groups it with every token it is rotated into. -/
structure RefreshToken where
  id : Option String := none
  token : Option String := none
  clientId : String
  subject : String
  scope : List String := []
  resource : Option String := none
  familyId : String
  rotatedTo : Option String := none
  rotatedAt : Option DateTime := none
  revokedAt : Option DateTime := none
  expiresAt : Option DateTime := none
  familyExpiresAt : Option DateTime := none
  insertedAt : Option DateTime := none
  deriving DecidableEq

/-- A recorded grant of scope by a subject to a client. -/
structure Consent where
  subject : String
  clientId : String
  scope : List String := []
  resource : Option String := none
  grantedAt : Option DateTime := none
  expiresAt : Option DateTime := none
  deriving DecidableEq

/-- An issued access token, tracked only on request. -/
structure AccessToken where
  jti : Option String := none
  clientId : String
  subject : String
  scope : List String := []
  resource : Option String := none
  familyId : Option String := none
  expiresAt : Option DateTime := none
  revokedAt : Option DateTime := none
  deriving DecidableEq

/-- The map carried across the login round trip. -/
abbrev Payload := Table String Json

/-- A parked login state. -/
structure LoginState where
  payload : Payload
  expiresAt : DateTime
  deriving DecidableEq

/-! ## Answers of the store -/

/-- Why a store call was refused: no usable row, a row that was already used, or
a failure of the store; or the call raised. -/
inductive StoreError (ρ : Type) where
  | notFound
  | replayed (record : ρ)
  | storeError
  | raised
  deriving DecidableEq

/-- The reuse-detection clause of `usable?/1` in the ETS adapter: neither revoked
nor rotated, and its own expiry not reached. -/
def RefreshToken.usable (now : DateTime) (t : RefreshToken) : Bool :=
  t.revokedAt.isNone && t.rotatedAt.isNone && !expired now t.expiresAt

theorem RefreshToken.usable_iff {now : DateTime} {t : RefreshToken} :
    t.usable now = true ↔
      t.revokedAt = none ∧ t.rotatedAt = none ∧ expired now t.expiresAt = false := by
  simp [RefreshToken.usable, and_assoc]

end NoizuMcp.Auth
