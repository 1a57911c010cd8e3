import NoizuMcp.Auth.Server

/-!
# The token and revocation endpoints

`Noizu.MCP.Auth.Server.TokenPlug` (`POST /oauth/token` with its two grants),
`Noizu.MCP.Auth.Server.RevokePlug` (`POST /oauth/revoke`) and the minting
functions of `Noizu.MCP.Auth.Server.Tokens`, as programs over the server's
operations. Each store call is one operation, in the order in which the source
issues them; between two of them other requests may run.

The agent grant is answered as on a server without agent accounts.
-/

set_option autoImplicit false

namespace NoizuMcp.Auth

open Foundation Protocol

/-! ## Minting -/

/-- What a token is minted from. -/
structure Grant where
  subject : String
  clientId : String
  scope : List String
  resource : Option String
  familyId : Option String
  familyExpiresAt : Option DateTime := none
  deriving DecidableEq

/-- `Enum.join(scope, " ")`. -/
def joinScope (scope : List String) : String := joinWords scope

/-- The claims minted for a grant. -/
def accessClaims (config : Config) (grant : Grant) (now : DateTime) (jti : String) : Claims where
  iss := config.issuer
  sub := grant.subject
  aud := grant.resource
  clientId := grant.clientId
  scope := joinScope grant.scope
  jti := jti
  iat := now.toUnix
  nbf := now.toUnix
  exp := now.toUnix + config.accessTokenTtl
  familyId := grant.familyId

/-- `Tokens.mint_access_token/2`. -/
def mintAccessToken (config : Config) (grant : Grant) : ServerM (String × Claims) := do
  let now ← utcNow
  let jti ← generateToken
  let claims := accessClaims config grant now jti
  let jwt ← (Prog.perform (Op.sign claims) : ServerM String)
  return (jwt, claims)

/-- `Tokens.track_access_token/3`. -/
def trackAccessToken (config : Config) (claims : Claims) (grant : Grant) : ServerM Unit :=
  if config.trackAccessTokens then do
    let _ ← callStore (.putAccessToken
      { jti := some claims.jti, clientId := grant.clientId, subject := grant.subject,
        scope := grant.scope, resource := grant.resource, familyId := grant.familyId,
        expiresAt := some (.ofUnix claims.exp) })
    return ()
  else return ()

/-- `family_deadline/3`: inherited, or counted from the first token. -/
def familyDeadline (config : Config) (grant : Grant) (now : DateTime) : Option DateTime :=
  match config.refreshFamilyTtl with
  | none => none
  | some ttl => grant.familyExpiresAt.or (some (now.addSeconds ttl))

/-- The refresh token record minted for a grant. -/
def refreshRecord (config : Config) (grant : Grant) (token id familyId : String) (now : DateTime) :
    RefreshToken where
  id := some id
  token := some token
  clientId := grant.clientId
  subject := grant.subject
  scope := grant.scope
  resource := grant.resource
  familyId := familyId
  expiresAt := some (now.addSeconds config.refreshTokenTtl)
  familyExpiresAt := familyDeadline config grant now

/-- `Tokens.mint_refresh_token/2`. -/
def mintRefreshToken (config : Config) (grant : Grant) : ServerM (String × RefreshToken) := do
  let token ← generateToken
  let now ← utcNow
  let id ← generateId
  let familyId ← match grant.familyId with
    | some familyId => pure familyId
    | none => generateId
  return (token, refreshRecord config grant token id familyId now)

/-- The RFC 6749 §5.1 response body. -/
structure TokenResponse where
  accessToken : String
  tokenType : String := "Bearer"
  expiresIn : Nat
  scope : String
  refreshToken : Option String
  deriving DecidableEq

/-- `Tokens.token_response/4`. -/
def tokenResponse (config : Config) (access : String) (scope : List String)
    (refresh : Option String) : TokenResponse :=
  { accessToken := access, expiresIn := config.accessTokenTtl, scope := joinScope scope,
    refreshToken := refresh }

/-! ## PKCE -/

namespace Pkce

/-- RFC 7636 unreserved characters. -/
def unreserved (c : Char) : Bool :=
  ('a' ≤ c && c ≤ 'z') || ('A' ≤ c && c ≤ 'Z') || ('0' ≤ c && c ≤ '9') ||
    c == '-' || c == '.' || c == '_' || c == '~'

/-- `PKCE.valid_verifier?/1`. -/
def validVerifier (verifier : String) : Bool :=
  43 ≤ verifier.utf8ByteSize && verifier.utf8ByteSize ≤ 128 && verifier.toList.all unreserved

/-- `PKCE.verify/3`: S256 or nothing. -/
def verify (host : Host) (verifier : String) (challenge method : Option String) : Bool :=
  match challenge with
  | some stored => method == some "S256" && validVerifier verifier &&
      host.secretEqual (host.s256 verifier) stored
  | none => false

end Pkce

/-! ## The token endpoint -/

namespace TokenPlug

/-- The family of a code that has not yet made one is not there to revoke. -/
def revokeFamily (familyId : Option String) : ServerM Unit :=
  match familyId with
  | none => return ()
  | some familyId => do
    let _ ← callStore (.revokeRefreshFamily familyId)
    return ()

/-- `issue/3`: the access token, then the refresh token in a store call of its own. -/
def issue (config : Config) (client : Client) (grant : Grant) : ServerM TokenResponse := do
  let (access, claims) ← mintAccessToken config grant
  trackAccessToken config claims grant
  let refresh ←
    if client.supportsGrant "refresh_token" then do
      let (token, record) ← mintRefreshToken config grant
      match ← callStore (.putRefreshToken record) with
      | .ok _ => pure (some token)
      | .error _ => pure none
    else pure none
  return tokenResponse config access grant.scope refresh

/-- The successor keeps the family and its deadline. -/
def mintRotation (config : Config) (client : Client) (existing : RefreshToken)
    (scope : List String) (resource : Option String) : ServerM (String × RefreshToken) :=
  mintRefreshToken config
    { subject := existing.subject, clientId := client.clientId, scope := scope,
      resource := resource, familyId := some existing.familyId,
      familyExpiresAt := existing.familyExpiresAt }

/-- `redeem/2`: a replay revokes everything that came from the code. -/
def redeem (code : String) : Handler AuthorizationCode := do
  match ← callStore (.takeAuthorizationCode code) with
  | .ok record => return record
  | .error (.replayed record) =>
    revokeFamily record.refreshFamilyId
    throw (.new .invalidGrant)
  | .error _ => throw (.new .invalidGrant)

/-- `check_code_client/3`: a code of another client revokes what was made of it. -/
def checkCodeClient (record : AuthorizationCode) (client : Client) : Handler Unit :=
  if record.clientId = client.clientId then return ()
  else do
    revokeFamily record.refreshFamilyId
    throw (.new .invalidGrant)

/-- `check_code_redirect_uri/3`: a missing one is refused without a revocation. -/
def checkCodeRedirectUri (record : AuthorizationCode) (params : Params) : Handler Unit :=
  match params.optional "redirect_uri" with
  | .ok none => throw (.new .invalidGrant)
  | .ok (some presented) =>
    if record.redirectUri = some presented then return ()
    else do
      revokeFamily record.refreshFamilyId
      throw (.new .invalidGrant)
  | .error e => throw e

/-- `check_pkce/3`: a verifier that does not fit the challenge revokes what was made of the code. -/
def checkPkce (config : Config) (record : AuthorizationCode) (verifier : String) : Handler Unit :=
  if Pkce.verify config.host verifier record.codeChallenge record.codeChallengeMethod then return ()
  else do
    revokeFamily record.refreshFamilyId
    throw (.new .invalidGrant)

/-- `check_code_resource/2` and `check_refresh_resource/2`: the audience is fixed;
a parameter may only name it again. -/
def checkResource (config : Config) (resource : Option String) (params : Params) :
    Except Errors (Option String) :=
  match params.optional "resource" with
  | .ok none => .ok resource
  | .ok (some requested) =>
    if config.host.resourceEqual requested resource then .ok resource
    else .error (.new .invalidTarget)
  | .error e => .error e

/-- The `authorization_code` grant. -/
def grantAuthorizationCode (config : Config) (client : Client) (params : Params) :
    Handler TokenResponse := do
  let code ← check (params.fetch "code" .invalidGrant)
  let verifier ← check (params.fetch "code_verifier" .invalidGrant)
  let record ← redeem code
  checkCodeClient record client
  checkCodeRedirectUri record params
  checkPkce config record verifier
  let resource ← check (checkResource config record.resource params)
  issue config client
    { subject := record.subject, clientId := client.clientId, scope := record.scope,
      resource := resource, familyId := record.refreshFamilyId }

/-- The record `detect_reuse/5` probes the rotation with. -/
def probeRecord (client : Client) (token familyId : String) (now : DateTime) : RefreshToken :=
  { token := some token, clientId := client.clientId, subject := "reuse-probe",
    familyId := familyId, expiresAt := some now }

/-- `detect_reuse/5`: a rotation attempt is the one call that tells "already
rotated" from "never existed". -/
def detectReuse (presented : String) (client : Client) : Handler RefreshToken := do
  let token ← (generateToken : ServerM _)
  let familyId ← (generateId : ServerM _)
  let now ← (utcNow : ServerM _)
  match ← callStore (.rotateRefreshToken presented (probeRecord client token familyId now)) with
  | .error (.replayed old) =>
    revokeFamily (some old.familyId)
    throw (.new .invalidGrant)
  | _ => throw (.new .invalidGrant)

/-- A token that is not live may be one that has been used before. -/
def fetchRefresh (presented : String) (client : Client) : Handler RefreshToken := do
  match ← callStore (.getRefreshToken presented) with
  | .ok record => return record
  | .error _ => detectReuse presented client

/-- A live token of another client is refused, and nothing more. -/
def checkRefreshClient (existing : RefreshToken) (client : Client) : Except Errors Unit :=
  if existing.clientId = client.clientId then .ok () else .error (.new .invalidGrant)

/-- `narrowed_scope/2`: a refresh may narrow its scope, never broaden it. -/
def narrowedScope (params : Params) (existing : RefreshToken) : Except Errors (List String) := do
  let requested ← params.spaceList "scope"
  if requested.isEmpty then return existing.scope
  else if requested.all (existing.scope.contains ·) then return requested
  else throw (.new .invalidScope)

/-- `rotate/5`: a replay revokes the family. -/
def rotate (presented : String) (record : RefreshToken) : Handler RefreshToken := do
  match ← callStore (.rotateRefreshToken presented record) with
  | .ok old => return old
  | .error (.replayed old) =>
    revokeFamily (some old.familyId)
    throw (.new .invalidGrant)
  | .error _ => throw (.new .invalidGrant)

/-- The `refresh_token` grant. -/
def grantRefreshToken (config : Config) (client : Client) (params : Params) :
    Handler TokenResponse := do
  let presented ← check (params.fetch "refresh_token" .invalidGrant)
  let existing ← fetchRefresh presented client
  check (checkRefreshClient existing client)
  let scope ← check (narrowedScope params existing)
  let resource ← check (checkResource config existing.resource params)
  let (token, record) ← mintRotation config client existing scope resource
  let _ ← rotate presented record
  let grant : Grant :=
    { subject := existing.subject, clientId := client.clientId, scope := scope,
      resource := resource, familyId := some existing.familyId }
  let (access, claims) ← mintAccessToken config grant
  trackAccessToken config claims grant
  return tokenResponse config access scope (some token)

/-- The grant has to be one of the server's and one of the client's. -/
def checkGrant (client : Client) (grantType : String) : Except Errors Unit :=
  if !Client.grantTypesSupported.contains grantType then .error (.new .unsupportedGrantType)
  else if !client.supportsGrant grantType then .error (.new .unauthorizedClient)
  else .ok ()

/-- The grant by its type. -/
def grant (config : Config) (grantType : String) (client : Client) (params : Params) :
    Handler TokenResponse :=
  if grantType = "authorization_code" then grantAuthorizationCode config client params
  else if grantType = "refresh_token" then grantRefreshToken config client params
  else throw (.new .unsupportedGrantType)

/-- The agent grant, which only servers with agent accounts answer otherwise. -/
def agentGrantType : String := "urn:ietf:params:oauth:grant-type:jwt-bearer"

/-- `serve/2` of the token endpoint. -/
def serve (config : Config) (authorization : Option String) (params : Params) :
    Handler TokenResponse := do
  if params.raw "grant_type" = some agentGrantType then throw (.new .unsupportedGrantType)
  let client ← authenticateClient config authorization params
  let grantType ← check (params.fetch "grant_type")
  check (checkGrant client grantType)
  grant config grantType client params

end TokenPlug

/-! ## The revocation endpoint -/

namespace RevokePlug

/-- A tracked access token of the client is marked; any other is left alone. -/
def revokeAccessToken (config : Config) (client : Client) (token : String) : ServerM Unit :=
  if config.trackAccessTokens then
    match config.host.verifyOwnToken token with
    | some claims =>
      if claims.clientId = client.clientId then do
        let _ ← callStore (.revokeAccessToken claims.jti)
        return ()
      else return ()
    | none => return ()
  else return ()

/-- `revoke/4`: the refresh tokens first unless the hint says otherwise. -/
def revoke (config : Config) (client : Client) (token : String) (hint : Option String) :
    ServerM Unit :=
  if hint = some "access_token" then revokeAccessToken config client token
  else do
    match ← callStore (.getRefreshToken token) with
    | .ok record =>
      if record.clientId = client.clientId then
        let _ ← callStore (.revokeRefreshFamily record.familyId)
        return ()
      else return ()
    | .error _ => revokeAccessToken config client token

/-- `serve/2` of the revocation endpoint: only a bad client credential is an error. -/
def serve (config : Config) (authorization : Option String) (params : Params) :
    ServerM (Except Errors Unit) := do
  let handled : Handler Unit := do
    let client ← authenticateClient config authorization params
    let token ← check (params.fetch "token")
    revoke config client token (params.raw "token_type_hint")
  match ← handled.run with
  | .ok () => return .ok ()
  | .error e => if e.code = .invalidClient then return .error e else return .ok ()

end RevokePlug

end NoizuMcp.Auth
