import NoizuMcp.Auth.Store
import NoizuMcp.Foundation.Words

/-!
# The Postgres adapter

`Noizu.MCP.Auth.Server.Store.Ecto` over the tables of the shipped schema
(`priv/liquibase/noizu_mcp_oauth.yaml`, `noizu_mcp_agent.yaml`). A callback is one
statement or one transaction, so one atomic step; a follow-up `SELECT` only tells
two zero-row answers apart. `now()` is the clock reading.

The database is modelled by what the statements can see of it: primary keys and
unique indexes, foreign keys, `NOT NULL` and `CHECK` columns refuse a write with
`:store_error`; a `uuid` column takes what `dump_uuid/1` can dump and the callback
raises otherwise; a scope column is text, and what is read back is the split of
the join. Text, `jsonb`, `bytea` and `timestamptz` columns return what was
written. `subject_type` is `:text`, the default. The tables of agent accounts, keys
and sessions are left out.
-/

set_option autoImplicit false

namespace NoizuMcp.Auth

open Foundation Protocol

/-- The tables of the database, each by its key. A row is the record a read
returns, without raw credentials. -/
structure StoreEcto where
  clients : Table String Client := ∅
  loginStates : Table String LoginState := ∅
  codes : Table String AuthorizationCode := ∅
  refreshTokens : Table String RefreshToken := ∅
  consents : Table (String × String) Consent := ∅
  accessTokens : Table String AccessToken := ∅
  assertionJti : Table String DateTime := ∅

namespace StoreEcto

variable (tokenHash : String → String) (now : DateTime)

/-! ## Columns -/

/-- `column > now()`; a comparison with `NULL` is not true. -/
def after (now : DateTime) : Option DateTime → Bool
  | none => false
  | some t => decide (now < t)

/-- `scope_list(scope_text(scope))`: a scope as it is read back. -/
def scopeColumn (scope : List String) : List String := words (joinWords scope)

def isHexDigit (c : Char) : Bool :=
  ('0' ≤ c && c ≤ '9') || ('a' ≤ c && c ≤ 'f') || ('A' ≤ c && c ≤ 'F')

/-- Five groups of 8, 4, 4, 4 and 12 hexadecimal digits. -/
def isUuid (value : String) : Bool :=
  value.toList.length == 36 && value.toList.zipIdx.all fun (c, i) =>
    if [8, 13, 18, 23].contains i then c == '-' else isHexDigit c

def hexDigit (n : Nat) : Char := ("0123456789abcdef".toList)[n]?.getD '0'

/-- The text of a `uuid` of raw bytes. -/
def uuidText (bytes : List UInt8) : String :=
  let hex := bytes.flatMap fun b => [hexDigit (b.toNat / 16), hexDigit (b.toNat % 16)]
  let group (start size : Nat) : String := String.ofList ((hex.drop start).take size)
  "-".intercalate [group 0 8, group 8 4, group 12 4, group 16 4, group 20 12]

/-- `dump_uuid/1`, as the text a later read casts it to. It takes 16 raw bytes or
the text of a `uuid` in either case, and raises on anything else. -/
def dumpUuid (value : String) : Option String :=
  if value.utf8ByteSize = 16 then some (uuidText value.toUTF8.toList)
  else if isUuid value then some (String.ofList (value.toList.map Char.toLower))
  else none

/-- A nullable `uuid` column. -/
def uuidColumn : Option String → Option (Option String)
  | none => some none
  | some value => (dumpUuid value).map some

/-! ## Clients -/

/-- `get_client`. -/
def getClient (clientId : String) (s : StoreEcto) : Except (StoreError Unit) Client :=
  match s.clients.lookup clientId with
  | some client => .ok client
  | none => .error .notFound

/-- An upsert of every modelled column. -/
def putClient (client : Client) (s : StoreEcto) : Except (StoreError Unit) Client × StoreEcto :=
  if ["none", "client_secret_post", "client_secret_basic"].contains
      client.tokenEndpointAuthMethod then
    let row := { client with scope := scopeColumn client.scope }
    (.ok row, { s with clients := s.clients.insert client.clientId row })
  else (.error .storeError, s)

/-- The foreign key of a `client_id` column. -/
def knowsClient (clientId : String) (s : StoreEcto) : Bool := (s.clients.lookup clientId).isSome

/-! ## Login states -/

/-- `put_login_state`: an upsert by the hash of the key. -/
def putLoginState (state : String) (payload : Payload) (ttl : Nat) (s : StoreEcto) :
    Except (StoreError Unit) Unit × StoreEcto :=
  (.ok (), { s with
    loginStates := s.loginStates.insert (tokenHash state) ⟨payload, now.addSeconds ttl⟩ })

/-- The row a statement on a live login state finds. -/
def liveLogin (state : String) (s : StoreEcto) : Option LoginState :=
  (s.loginStates.lookup (tokenHash state)).filter fun row => after now (some row.expiresAt)

/-- `get_login_state`: only until it expires. -/
def getLoginState (state : String) (s : StoreEcto) : Except (StoreError Unit) Payload :=
  match liveLogin tokenHash now state s with
  | some row => .ok row.payload
  | none => .error .notFound

/-- `payload || $2` on a live row only. -/
def updateLoginState (state : String) (changes : Payload) (s : StoreEcto) :
    Except (StoreError Unit) Payload × StoreEcto :=
  match liveLogin tokenHash now state s with
  | some row =>
    let updated : LoginState := { row with payload := changes ∪ row.payload }
    (.ok updated.payload,
      { s with loginStates := s.loginStates.insert (tokenHash state) updated })
  | none => (.error .notFound, s)

/-- The delete finds live rows only; an expired row stays. -/
def takeLoginState (state : String) (s : StoreEcto) :
    Except (StoreError Unit) Payload × StoreEcto :=
  match liveLogin tokenHash now state s with
  | some row => (.ok row.payload, { s with loginStates := s.loginStates.erase (tokenHash state) })
  | none => (.error .notFound, s)

/-! ## Authorization codes -/

/-- The `NOT NULL` and `CHECK` columns of a code. -/
def codeComplete (code : AuthorizationCode) : Bool :=
  code.redirectUri.isSome && code.codeChallenge.isSome &&
    code.codeChallengeMethod == some "S256" && code.expiresAt.isSome

/-- A plain insert; `used_at` is not among its columns. -/
def putAuthorizationCode (code : AuthorizationCode) (s : StoreEcto) :
    Except (StoreError Unit) Unit × StoreEcto :=
  match code.code, uuidColumn code.refreshFamilyId with
  | some raw, some familyId =>
    if codeComplete code && (s.codes.lookup (tokenHash raw)).isNone &&
        knowsClient code.clientId s then
      let row := { code with
        code := none, scope := scopeColumn code.scope, refreshFamilyId := familyId,
        usedAt := none, insertedAt := some now }
      (.ok (), { s with codes := s.codes.insert (tokenHash raw) row })
    else (.error .storeError, s)
  | _, _ => (.error .raised, s)

/-- `RETURNING` gives the row after the update. -/
def takeAuthorizationCode (code : String) (s : StoreEcto) :
    Except (StoreError AuthorizationCode) AuthorizationCode × StoreEcto :=
  match s.codes.lookup (tokenHash code) with
  | none => (.error .notFound, s)
  | some row =>
    if row.usedAt.isNone && after now row.expiresAt then
      let used := { row with usedAt := some now }
      (.ok used, { s with codes := s.codes.insert (tokenHash code) used })
    else if row.usedAt.isSome then (.error (.replayed row), s)
    else (.error .notFound, s)

/-- `bind_authorization_code_family`: raises for a family that is no uuid. -/
def bindAuthorizationCodeFamily (code familyId : String) (s : StoreEcto) :
    Except (StoreError Unit) Unit × StoreEcto :=
  match dumpUuid familyId with
  | none => (.error .raised, s)
  | some familyId =>
    match s.codes.lookup (tokenHash code) with
    | some row => (.ok (), { s with
        codes := s.codes.insert (tokenHash code) { row with refreshFamilyId := some familyId } })
    | none => (.error .notFound, s)

/-! ## Refresh tokens -/

/-- The row an insert of a refresh token makes. -/
def refreshRow (id familyId : String) (token : RefreshToken) : RefreshToken :=
  { token with
    id := some id, token := none, scope := scopeColumn token.scope, familyId := familyId,
    rotatedTo := none, rotatedAt := none, revokedAt := none, insertedAt := some now }

/-- `insert_refresh/2`: a plain insert under the unique indexes on the hash and on
the id. -/
def insertRefresh {ρ : Type} (fresh : String) (token : RefreshToken) (s : StoreEcto) :
    Except (StoreError ρ) (RefreshToken × StoreEcto) :=
  match token.token, dumpUuid (token.id.getD fresh), dumpUuid token.familyId with
  | some raw, some id, some familyId =>
    if token.expiresAt.isSome && (s.refreshTokens.lookup (tokenHash raw)).isNone &&
        !(s.refreshTokens.rows.any fun row => row.id == some id) &&
        knowsClient token.clientId s then
      let row := refreshRow now id familyId token
      .ok (row, { s with refreshTokens := s.refreshTokens.insert (tokenHash raw) row })
    else .error .storeError
  | _, _, _ => .error .raised

/-- `put_refresh_token`: one insert. -/
def putRefreshToken (fresh : String) (token : RefreshToken) (s : StoreEcto) :
    Except (StoreError Unit) Unit × StoreEcto :=
  match insertRefresh tokenHash now fresh token s with
  | .ok (_, s') => (.ok (), s')
  | .error e => (.error e, s)

/-- `get_refresh_token`: live rows only; the family's deadline is not looked at. -/
def getRefreshToken (token : String) (s : StoreEcto) : Except (StoreError Unit) RefreshToken :=
  match s.refreshTokens.lookup (tokenHash token) with
  | some row =>
    if row.revokedAt.isNone && row.rotatedAt.isNone && after now row.expiresAt then .ok row
    else .error .notFound
  | none => .error .notFound

/-- The guard of the claiming `UPDATE`: the family's deadline counts. -/
def rotatable (row : RefreshToken) : Bool :=
  row.rotatedAt.isNone && row.revokedAt.isNone && after now row.expiresAt &&
    (row.familyExpiresAt.isNone || after now row.familyExpiresAt)

/-- One transaction: claim the row, insert the successor, link them. A failed
insert rolls the claim back. -/
def rotateRefreshToken (fresh : String) (oldToken : String) (newToken : RefreshToken)
    (s : StoreEcto) : Except (StoreError RefreshToken) RefreshToken × StoreEcto :=
  match s.refreshTokens.lookup (tokenHash oldToken) with
  | none => (.error .notFound, s)
  | some row =>
    if rotatable now row then
      let claimed := { row with rotatedAt := some now }
      let claim := { s with
        refreshTokens := s.refreshTokens.insert (tokenHash oldToken) claimed }
      let successor := { newToken with
        familyId := row.familyId, familyExpiresAt := row.familyExpiresAt }
      match insertRefresh tokenHash now fresh successor claim with
      | .ok (new, s') => (.ok claimed, { s' with
          refreshTokens :=
            s'.refreshTokens.insert (tokenHash oldToken) { claimed with rotatedTo := new.id } })
      | .error e => (.error e, s)
    else if row.rotatedAt.isSome && row.revokedAt.isNone then (.error (.replayed row), s)
    else (.error .notFound, s)

/-- `SET revoked_at = now() WHERE … AND revoked_at IS NULL` on one row. -/
def revokeRow (condition : RefreshToken → Bool) (row : RefreshToken) : RefreshToken :=
  if condition row && row.revokedAt.isNone then { row with revokedAt := some now } else row

/-- `UPDATE … SET revoked_at` for the rows that meet the condition. -/
def revokeWhere (condition : RefreshToken → Bool) (s : StoreEcto) : StoreEcto :=
  { s with refreshTokens := Table.mapRows (revokeRow now condition) s.refreshTokens }

/-- `revoke_refresh_token`: a token that is not there is no error. -/
def revokeRefreshToken (token : String) (s : StoreEcto) :
    Except (StoreError Unit) Unit × StoreEcto :=
  match s.refreshTokens.lookup (tokenHash token) with
  | some row => (.ok (), { s with
      refreshTokens :=
        s.refreshTokens.insert (tokenHash token) (revokeRow now (fun _ => true) row) })
  | none => (.ok (), s)

/-- `revoke_refresh_family`. -/
def revokeRefreshFamily (familyId : String) (s : StoreEcto) :
    Except (StoreError Unit) Unit × StoreEcto :=
  match dumpUuid familyId with
  | none => (.error .raised, s)
  | some familyId => (.ok (), revokeWhere now (fun row => row.familyId == familyId) s)

/-- `revoke_subject_tokens`, of one client or of all. -/
def revokeSubjectTokens (subject : String) (clientId : Option String) (s : StoreEcto) :
    Except (StoreError Unit) Unit × StoreEcto :=
  match clientId with
  | none => (.ok (), revokeWhere now (fun row => row.subject == subject) s)
  | some clientId =>
    (.ok (), revokeWhere now (fun row => row.subject == subject && row.clientId == clientId) s)

/-! ## Consents and access tokens -/

/-- `get_consent`: only until it expires. -/
def getConsent (subject clientId : String) (s : StoreEcto) : Except (StoreError Unit) Consent :=
  match s.consents.lookup (subject, clientId) with
  | some row =>
    if row.expiresAt.isNone || after now row.expiresAt then .ok row else .error .notFound
  | none => .error .notFound

/-- `put_consent`: an upsert; the client has to exist. -/
def putConsent (consent : Consent) (s : StoreEcto) : Except (StoreError Unit) Unit × StoreEcto :=
  if knowsClient consent.clientId s then
    let row := { consent with scope := scopeColumn consent.scope, grantedAt := some now }
    (.ok (), { s with consents := s.consents.insert (consent.subject, consent.clientId) row })
  else (.error .storeError, s)

/-- `ON CONFLICT DO NOTHING`; a `NULL` in a `NOT NULL` column is refused before. -/
def putAccessToken (token : AccessToken) (s : StoreEcto) :
    Except (StoreError Unit) Unit × StoreEcto :=
  match token.jti, uuidColumn token.familyId with
  | some raw, some familyId =>
    if token.expiresAt.isNone then (.error .storeError, s)
    else if (s.accessTokens.lookup (tokenHash raw)).isSome then (.ok (), s)
    else if knowsClient token.clientId s then
      let row := { token with
        jti := none, scope := scopeColumn token.scope, familyId := familyId, revokedAt := none }
      (.ok (), { s with accessTokens := s.accessTokens.insert (tokenHash raw) row })
    else (.error .storeError, s)
  | _, _ => (.error .raised, s)

/-- With tracking off there is no table to ask. -/
def accessTokenRevoked (track : Bool) (jti : String) (s : StoreEcto) : Bool :=
  match s.accessTokens.lookup (tokenHash jti) with
  | some row => track && row.revokedAt.isSome
  | none => false

/-- `revoke_access_token`. -/
def revokeAccessToken (track : Bool) (jti : String) (s : StoreEcto) :
    Except (StoreError Unit) Unit × StoreEcto :=
  match s.accessTokens.lookup (tokenHash jti) with
  | some row =>
    if track && row.revokedAt.isNone then
      let revoked := { row with revokedAt := some now }
      (.ok (), { s with accessTokens := s.accessTokens.insert (tokenHash jti) revoked })
    else (.ok (), s)
  | none => (.ok (), s)

/-! ## Assertions -/

/-- `ON CONFLICT DO NOTHING`: a claim stands until its row is purged. -/
def claimAssertionJti (jti : String) (expiresAt : DateTime) (s : StoreEcto) :
    Except (StoreError Unit) Unit × StoreEcto :=
  match s.assertionJti.lookup (tokenHash jti) with
  | some _ => (.error (.replayed ()), s)
  | none => (.ok (), { s with assertionJti := s.assertionJti.insert (tokenHash jti) expiresAt })

/-! ## Dispatch -/

/-- Answer one call at a clock reading. `track` is the option `:track_access_tokens`. -/
def perform (track : Bool) (fresh : String) :
    (call : StoreCall) → StoreEcto → call.Answer × StoreEcto
  | .getClient clientId, s => (getClient clientId s, s)
  | .putClient client, s => putClient client s
  | .putLoginState state payload ttl, s => putLoginState tokenHash now state payload ttl s
  | .getLoginState state, s => (getLoginState tokenHash now state s, s)
  | .updateLoginState state changes, s => updateLoginState tokenHash now state changes s
  | .takeLoginState state, s => takeLoginState tokenHash now state s
  | .putAuthorizationCode code, s => putAuthorizationCode tokenHash now code s
  | .takeAuthorizationCode code, s => takeAuthorizationCode tokenHash now code s
  | .bindAuthorizationCodeFamily code familyId, s =>
    bindAuthorizationCodeFamily tokenHash code familyId s
  | .putRefreshToken token, s => putRefreshToken tokenHash now fresh token s
  | .getRefreshToken token, s => (getRefreshToken tokenHash now token s, s)
  | .rotateRefreshToken oldToken newToken, s =>
    rotateRefreshToken tokenHash now fresh oldToken newToken s
  | .revokeRefreshToken token, s => revokeRefreshToken tokenHash now token s
  | .revokeRefreshFamily familyId, s => revokeRefreshFamily now familyId s
  | .revokeSubjectTokens subject clientId, s => revokeSubjectTokens now subject clientId s
  | .getConsent subject clientId, s => (getConsent now subject clientId s, s)
  | .putConsent consent, s => putConsent now consent s
  | .revokeConsent subject clientId, s =>
    (.ok (), { s with consents := s.consents.erase (subject, clientId) })
  | .putAccessToken token, s => putAccessToken tokenHash token s
  | .accessTokenRevoked jti, s => (.ok (accessTokenRevoked tokenHash track jti s), s)
  | .revokeAccessToken jti, s => revokeAccessToken tokenHash now track jti s
  | .claimAssertionJti jti expiresAt, s => claimAssertionJti tokenHash jti expiresAt s

/-- The Postgres adapter over a hash, on an empty database. -/
def adapter (track : Bool) : StoreAdapter where
  State := StoreEcto
  empty := {}
  perform := fun now fresh => perform tokenHash now track fresh

end StoreEcto

end NoizuMcp.Auth
