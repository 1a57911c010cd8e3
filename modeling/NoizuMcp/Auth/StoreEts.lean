import NoizuMcp.Auth.Store

/-!
# The in-memory adapter

`Noizu.MCP.Auth.Server.Store.ETS`: one table per record, all writes serialized
by the owning process, so that each callback is one atomic step. Credentials are
keyed by `Secret.token_hash/1`, a parameter here: no result depends on more
about the hash than that it is a function.

The definitions follow the callbacks one by one. `StoreEts.perform` dispatches
a call to its callback.
-/

set_option autoImplicit false

namespace NoizuMcp.Auth

open Foundation Protocol

/-- The tables of the in-memory adapter. -/
structure StoreEts where
  clients : Table String Client := ∅
  loginStates : Table String LoginState := ∅
  codes : Table String AuthorizationCode := ∅
  refreshTokens : Table String RefreshToken := ∅
  consents : Table (String × String) Consent := ∅
  accessTokens : Table String AccessToken := ∅
  assertionJti : Table String DateTime := ∅

namespace StoreEts

variable (tokenHash : String → String) (now : DateTime)

def lookup {κ α : Type} [DecidableEq κ] (t : Table κ α) (key : κ) : Except (StoreError Unit) α :=
  match t.lookup key with
  | some record => .ok record
  | none => .error .notFound

/-! ## Login states -/

/-- `put_login_state`. -/
def putLoginState (state : String) (payload : Payload) (ttl : Nat) (s : StoreEts) :
    Except (StoreError Unit) Unit × StoreEts :=
  (.ok (), { s with
    loginStates := s.loginStates.insert (tokenHash state) ⟨payload, now.addSeconds ttl⟩ })

/-- `get_login_state`: only until it expires. -/
def getLoginState (state : String) (s : StoreEts) : Except (StoreError Unit) Payload :=
  match s.loginStates.lookup (tokenHash state) with
  | some record =>
    if expired now (some record.expiresAt) then .error .notFound else .ok record.payload
  | none => .error .notFound

/-- The merge looks at no expiry. -/
def updateLoginState (state : String) (changes : Payload) (s : StoreEts) :
    Except (StoreError Unit) Payload × StoreEts :=
  match s.loginStates.lookup (tokenHash state) with
  | some record =>
    let updated : LoginState := { record with payload := changes ∪ record.payload }
    (.ok updated.payload,
      { s with loginStates := s.loginStates.insert (tokenHash state) updated })
  | none => (.error .notFound, s)

/-- `:ets.take/2` removes the row before its expiry is looked at. -/
def takeLoginState (state : String) (s : StoreEts) : Except (StoreError Unit) Payload × StoreEts :=
  match s.loginStates.lookup (tokenHash state) with
  | some record =>
    let rest : StoreEts := { s with loginStates := s.loginStates.erase (tokenHash state) }
    if expired now (some record.expiresAt) then (.error .notFound, rest)
    else (.ok record.payload, rest)
  | none => (.error .notFound, s)

/-! ## Authorization codes -/

/-- `put_authorization_code`: raises without a code to hash. -/
def putAuthorizationCode (code : AuthorizationCode) (s : StoreEts) :
    Except (StoreError Unit) Unit × StoreEts :=
  match code.code with
  | none => (.error .raised, s)
  | some raw =>
    let record := { code with code := none, insertedAt := code.insertedAt.or (some now) }
    (.ok (), { s with codes := s.codes.insert (tokenHash raw) record })

/-- A redeemed code is marked and kept, so that a replay can be seen. The answer
is the record as it was before the mark. -/
def takeAuthorizationCode (code : String) (s : StoreEts) :
    Except (StoreError AuthorizationCode) AuthorizationCode × StoreEts :=
  match s.codes.lookup (tokenHash code) with
  | none => (.error .notFound, s)
  | some record =>
    match record.usedAt with
    | some _ => (.error (.replayed record), s)
    | none =>
      if expired now record.expiresAt then (.error .notFound, s)
      else (.ok record,
        { s with codes := s.codes.insert (tokenHash code) { record with usedAt := some now } })

/-- `bind_authorization_code_family`: the family that the code has founded. -/
def bindAuthorizationCodeFamily (code familyId : String) (s : StoreEts) :
    Except (StoreError Unit) Unit × StoreEts :=
  match s.codes.lookup (tokenHash code) with
  | some record => (.ok (), { s with
      codes := s.codes.insert (tokenHash code) { record with refreshFamilyId := some familyId } })
  | none => (.error .notFound, s)

/-! ## Refresh tokens -/

/-- `put_refresh_token`: raises without a token to hash. -/
def putRefreshToken (fresh : String) (token : RefreshToken) (s : StoreEts) :
    Except (StoreError Unit) Unit × StoreEts :=
  match token.token with
  | none => (.error .raised, s)
  | some raw =>
    let record := { token with
      token := none, id := token.id.or (some fresh)
      insertedAt := token.insertedAt.or (some now) }
    (.ok (), { s with refreshTokens := s.refreshTokens.insert (tokenHash raw) record })

/-- `get_refresh_token`: live records only; the family's deadline is not looked at. -/
def getRefreshToken (token : String) (s : StoreEts) : Except (StoreError Unit) RefreshToken :=
  match s.refreshTokens.lookup (tokenHash token) with
  | some record => if record.usable now then .ok record else .error .notFound
  | none => .error .notFound

/-- The row a rotation inserts: the new token under the old one's family. -/
def successor (fresh : String) (old newToken : RefreshToken) : RefreshToken :=
  { newToken with
    token := none, id := newToken.id.or (some fresh), familyId := old.familyId,
    familyExpiresAt := old.familyExpiresAt, insertedAt := some now }

/-- The rotated row: marked, and linked to its successor. -/
def retired (fresh : String) (old newToken : RefreshToken) : RefreshToken :=
  { old with rotatedAt := some now, rotatedTo := newToken.id.or (some fresh) }

/-- `rotate_refresh_token`: one step; the family's deadline is not looked at. -/
def rotateRefreshToken (fresh : String) (oldToken : String) (newToken : RefreshToken)
    (s : StoreEts) : Except (StoreError RefreshToken) RefreshToken × StoreEts :=
  match newToken.token with
  | none => (.error .raised, s)
  | some newRaw =>
    match s.refreshTokens.lookup (tokenHash oldToken) with
    | none => (.error .notFound, s)
    | some old =>
      if old.revokedAt.isSome then (.error .notFound, s)
      else if expired now old.expiresAt then (.error .notFound, s)
      else if old.rotatedAt.isSome then (.error (.replayed old), s)
      else
        let inserted := s.refreshTokens.insert (tokenHash newRaw) (successor now fresh old newToken)
        (.ok old, { s with
          refreshTokens := inserted.insert (tokenHash oldToken) (retired now fresh old newToken) })

/-- `revoke_refresh_token`: a token that is not there is no error. -/
def revokeRefreshToken (token : String) (s : StoreEts) : Except (StoreError Unit) Unit × StoreEts :=
  match s.refreshTokens.lookup (tokenHash token) with
  | some record =>
    let revoked := { record with revokedAt := some now }
    (.ok (), { s with refreshTokens := s.refreshTokens.insert (tokenHash token) revoked })
  | none => (.ok (), s)

/-- `revoke_where/2` on one row. -/
def revokeRow (predicate : RefreshToken → Bool) (t : RefreshToken) : RefreshToken :=
  if predicate t && t.revokedAt.isNone then { t with revokedAt := some now } else t

/-- `revoke_where/2`: mark every matching row that is not revoked yet. -/
def revokeWhere (predicate : RefreshToken → Bool) (s : StoreEts) : StoreEts :=
  { s with refreshTokens := Table.mapRows (revokeRow now predicate) s.refreshTokens }

/-- `revoke_refresh_family`. -/
def revokeRefreshFamily (familyId : String) (s : StoreEts) :
    Except (StoreError Unit) Unit × StoreEts :=
  (.ok (), revokeWhere now (fun t => t.familyId == familyId) s)

/-- `revoke_subject_tokens`, of one client or of all. -/
def revokeSubjectTokens (subject : String) (clientId : Option String) (s : StoreEts) :
    Except (StoreError Unit) Unit × StoreEts :=
  (.ok (), revokeWhere now
    (fun t => t.subject == subject && (clientId.isNone || clientId == some t.clientId)) s)

/-! ## Consents and access tokens -/

/-- `get_consent`: only until it expires. -/
def getConsent (subject clientId : String) (s : StoreEts) : Except (StoreError Unit) Consent :=
  match s.consents.lookup (subject, clientId) with
  | some consent => if expired now consent.expiresAt then .error .notFound else .ok consent
  | none => .error .notFound

/-- `put_consent`: overwrites what the subject gave the client before. -/
def putConsent (consent : Consent) (s : StoreEts) : Except (StoreError Unit) Unit × StoreEts :=
  let record := { consent with grantedAt := consent.grantedAt.or (some now) }
  (.ok (), { s with consents := s.consents.insert (consent.subject, consent.clientId) record })

/-- `put_access_token`: raises without a `jti` to hash. -/
def putAccessToken (token : AccessToken) (s : StoreEts) :
    Except (StoreError Unit) Unit × StoreEts :=
  match token.jti with
  | none => (.error .raised, s)
  | some raw => (.ok (), { s with
      accessTokens := s.accessTokens.insert (tokenHash raw) { token with jti := none } })

/-- `access_token_revoked?`: an unknown token counts as good. -/
def accessTokenRevoked (jti : String) (s : StoreEts) : Bool :=
  match s.accessTokens.lookup (tokenHash jti) with
  | some token => token.revokedAt.isSome
  | none => false

/-- `revoke_access_token`. -/
def revokeAccessToken (jti : String) (s : StoreEts) : Except (StoreError Unit) Unit × StoreEts :=
  match s.accessTokens.lookup (tokenHash jti) with
  | some token => (.ok (), { s with
      accessTokens := s.accessTokens.insert (tokenHash jti) { token with revokedAt := some now } })
  | none => (.ok (), s)

/-! ## Assertions -/

/-- A claim whose row has expired may be made again. -/
def claimAssertionJti (jti : String) (expiresAt : DateTime) (s : StoreEts) :
    Except (StoreError Unit) Unit × StoreEts :=
  match s.assertionJti.lookup (tokenHash jti) with
  | some existing =>
    if expired now (some existing) then
      (.ok (), { s with assertionJti := s.assertionJti.insert (tokenHash jti) expiresAt })
    else (.error (.replayed ()), s)
  | none => (.ok (), { s with assertionJti := s.assertionJti.insert (tokenHash jti) expiresAt })

/-! ## Dispatch -/

/-- Answer one call at a clock reading. -/
def perform (fresh : String) : (call : StoreCall) → StoreEts → call.Answer × StoreEts
  | .getClient clientId, s => (lookup s.clients clientId, s)
  | .putClient client, s =>
    (.ok client, { s with clients := s.clients.insert client.clientId client })
  | .putLoginState state payload ttl, s => putLoginState tokenHash now state payload ttl s
  | .getLoginState state, s => (getLoginState tokenHash now state s, s)
  | .updateLoginState state changes, s => updateLoginState tokenHash state changes s
  | .takeLoginState state, s => takeLoginState tokenHash now state s
  | .putAuthorizationCode code, s => putAuthorizationCode tokenHash now code s
  | .takeAuthorizationCode code, s => takeAuthorizationCode tokenHash now code s
  | .bindAuthorizationCodeFamily code familyId, s =>
    bindAuthorizationCodeFamily tokenHash code familyId s
  | .putRefreshToken token, s => putRefreshToken tokenHash now fresh token s
  | .getRefreshToken token, s => (getRefreshToken tokenHash now token s, s)
  | .rotateRefreshToken oldToken newToken, s =>
    rotateRefreshToken tokenHash now fresh oldToken newToken s
  | .revokeRefreshToken token, s => revokeRefreshToken tokenHash now token s
  | .revokeRefreshFamily familyId, s => revokeRefreshFamily now familyId s
  | .revokeSubjectTokens subject clientId, s => revokeSubjectTokens now subject clientId s
  | .getConsent subject clientId, s => (getConsent now subject clientId s, s)
  | .putConsent consent, s => putConsent now consent s
  | .revokeConsent subject clientId, s =>
    (.ok (), { s with consents := s.consents.erase (subject, clientId) })
  | .putAccessToken token, s => putAccessToken tokenHash token s
  | .accessTokenRevoked jti, s => (.ok (accessTokenRevoked tokenHash jti s), s)
  | .revokeAccessToken jti, s => revokeAccessToken tokenHash now jti s
  | .claimAssertionJti jti expiresAt, s => claimAssertionJti tokenHash now jti expiresAt s

/-- The in-memory adapter over a hash. -/
def adapter : StoreAdapter where
  State := StoreEts
  empty := {}
  perform := fun now fresh => perform tokenHash now fresh

end StoreEts

end NoizuMcp.Auth
