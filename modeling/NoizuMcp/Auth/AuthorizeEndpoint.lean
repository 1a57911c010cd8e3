import NoizuMcp.Auth.TokenEndpoint

/-!
# The authorization endpoint

`Noizu.MCP.Auth.Server.AuthorizePlug`: `GET /oauth/authorize`, which starts a
request or resumes a parked one, and `POST /oauth/consent`, the decision from the
consent form, with the consent gate of `Noizu.MCP.Auth.Server.Consent`. The
parked request is a login state in the store, keyed by a random handle and
carrying a CSRF value; the handle and the value travel through the browser.
-/

set_option autoImplicit false

namespace NoizuMcp.Auth

open Foundation Protocol

/-! ## The parked request -/

/-- The authorization request that is parked across the login. -/
structure AuthRequest where
  clientId : Option String
  redirectUri : Option String
  scope : List String
  resource : Option String
  codeChallenge : Option String
  state : Option String
  nonce : Option String
  deriving DecidableEq

/-- A nullable string as a payload value. -/
def jsonOpt : Option String → Json
  | some s => .str s
  | none => .null

/-- `payload[key]` where it is a string. -/
def Payload.str (payload : Payload) (key : String) : Option String :=
  (payload.lookup key).bind Json.asStr

/-- `List.wrap(payload[key])`, of strings. -/
def Payload.strs (payload : Payload) (key : String) : List String :=
  match payload.lookup key with
  | some (.arr items) => items.filterMap Json.asStr
  | some (.str s) => [s]
  | _ => []

/-- The payload `park_and_continue/4` stores. -/
def AuthRequest.toPayload (r : AuthRequest) (csrfToken : String) : Payload :=
  ((((((((∅ : Payload).insert "client_id" (jsonOpt r.clientId)).insert
    "redirect_uri" (jsonOpt r.redirectUri)).insert "scope" (.arr (r.scope.map .str))).insert
    "resource" (jsonOpt r.resource)).insert "code_challenge" (jsonOpt r.codeChallenge)).insert
    "state" (jsonOpt r.state)).insert "nonce" (jsonOpt r.nonce)).insert
    "csrf_token" (.str csrfToken)

/-- The request that a parked login continues. -/
def toRequest (payload : Payload) : AuthRequest where
  clientId := payload.str "client_id"
  redirectUri := payload.str "redirect_uri"
  scope := payload.strs "scope"
  resource := payload.str "resource"
  codeChallenge := payload.str "code_challenge"
  state := payload.str "state"
  nonce := payload.str "nonce"

/-! ## What the browser gets -/

/-- The response to a browser. The login redirect and the login page carry the
state handle; the consent page carries the handle and the CSRF value. -/
inductive PageAnswer where
  | errorPage (error : Errors)
  | errorRedirect (redirectUri : Option String) (error : Errors) (iss : String)
  | login (url : Option String) (stateKey : String)
  | consentPage (client : Client) (subject : String) (scope : List String)
      (resource : Option String) (csrfToken : Option String) (loginState : String)
  | codeRedirect (redirectUri : Option String) (code : String) (iss : String)
      (state : Option String)
  deriving DecidableEq

/-! ## Consent -/

namespace ConsentGate

/-- `Consent.required?/4`: whether the consent screen may be skipped. -/
def skip (config : Config) (client : Client) (subject : String) (scope : List String) :
    ServerM Bool :=
  if client.requiresConsent config then do
    match ← callStore (.getConsent subject client.clientId) with
    | .ok granted => return scope.all (granted.scope.contains ·)
    | .error _ => return false
  else return true

/-- When a consent given now ends, if it does. -/
def expiry (config : Config) : ServerM (Option DateTime) :=
  match config.consentTtl with
  | none => return none
  | some ttl => do
    let now ← utcNow
    return some (now.addSeconds ttl)

/-- `Consent.record/5`: the union of what was granted before and now. -/
def record (config : Config) (client : Client) (subject : String) (scope : List String)
    (resource : Option String) : ServerM Unit := do
  let answer ← callStore (.getConsent subject client.clientId)
  let previous := match answer with
    | .ok granted => granted.scope
    | .error _ => []
  let grantedAt ← utcNow
  let expiresAt ← expiry config
  let _ ← callStore (.putConsent
    { subject := subject, clientId := client.clientId, scope := (previous ++ scope).eraseDups,
      resource := resource, grantedAt := some grantedAt, expiresAt := expiresAt })
  return ()

/-- `Consent.valid_csrf?/2`. -/
def validCsrf (host : Host) (payload : Payload) (submitted : Option String) : Bool :=
  match submitted, payload.str "csrf_token" with
  | some submitted, some expected => host.secretEqual expected submitted
  | _, _ => false

end ConsentGate

/-! ## Codes -/

/-- The code record minted for an approved request. -/
def codeRecord (config : Config) (client : Client) (subject : String) (request : AuthRequest)
    (code familyId : String) (expiryBase insertedAt : DateTime) : AuthorizationCode where
  code := some code
  clientId := client.clientId
  subject := subject
  redirectUri := request.redirectUri
  scope := request.scope
  resource := request.resource
  codeChallenge := request.codeChallenge
  codeChallengeMethod := some "S256"
  nonce := request.nonce
  refreshFamilyId := some familyId
  expiresAt := some (expiryBase.addSeconds config.authorizationCodeTtl)
  insertedAt := some insertedAt

/-- `Tokens.mint_authorization_code/2`. -/
def mintAuthorizationCode (config : Config) (client : Client) (subject : String)
    (request : AuthRequest) : ServerM (String × AuthorizationCode) := do
  let code ← generateToken
  let familyId ← generateId
  let expiryBase ← utcNow
  let insertedAt ← utcNow
  return (code, codeRecord config client subject request code familyId expiryBase insertedAt)

namespace AuthorizePlug

/-- `issue_code/6`. The answer of the take is ignored, as in the source. -/
def issueCode (config : Config) (client : Client) (subject : String) (request : AuthRequest)
    (stateKey : String) : ServerM PageAnswer := do
  let _ ← callStore (.takeLoginState stateKey)
  let (code, record) ← mintAuthorizationCode config client subject request
  match ← callStore (.putAuthorizationCode record) with
  | .ok _ => return .codeRedirect request.redirectUri code config.issuer request.state
  | .error _ =>
    let error := (Errors.new .serverError).withState request.state
    return .errorRedirect request.redirectUri error config.issuer

/-- `gate_consent/6`, with `render_consent/7` for the prompt. -/
def gateConsent (config : Config) (client : Client) (subject : String) (stateKey : String)
    (payload : Payload) : ServerM PageAnswer := do
  let request := toRequest payload
  if ← ConsentGate.skip config client subject request.scope then
    issueCode config client subject request stateKey
  else
    let csrfToken := payload.str "csrf_token"
    return .consentPage client subject request.scope request.resource csrfToken stateKey

/-- `authenticate/5`, with `record_subject/3`: the host's login decides who the
browser is, and the login state takes that subject. -/
def authenticate (config : Config) (client : Client) (stateKey : String) (payload : Payload) :
    ServerM PageAnswer := do
  match ← (Prog.perform (Op.upstreamAuthenticate stateKey) : ServerM UpstreamAnswer) with
  | .ok subject =>
    let _ ← callStore (.updateLoginState stateKey
      ((∅ : Payload).insert "subject" (.str subject)))
    gateConsent config client subject stateKey payload
  | .redirect url => return .login (some url) stateKey
  | .sent => return .login none stateKey
  | .error => return .errorPage (.new .serverError)

/-- A login that is unknown or over is an invalid request. -/
def loadState (stateKey : String) : Handler Payload := do
  match ← callStore (.getLoginState stateKey) with
  | .ok payload => return payload
  | .error _ => throw (.new .invalidRequest)

/-- The request is parked under a new key, with a new CSRF value. -/
def parkAndContinue (config : Config) (client : Client) (request : AuthRequest) :
    ServerM PageAnswer := do
  let stateKey ← generateToken
  let csrfToken ← generateToken
  let payload := request.toPayload csrfToken
  match ← callStore (.putLoginState stateKey payload config.loginStateTtl) with
  | .ok _ => authenticate config client stateKey payload
  | .error _ => return .errorPage (.new .serverError)

/-- The parked login is taken up again, with its client looked up anew. -/
def resume (config : Config) (stateKey : String) : ServerM PageAnswer := do
  let loaded : Handler (Client × Payload) := do
    let payload ← loadState stateKey
    let client ← resolveClient (payload.str "client_id")
    return (client, payload)
  match ← loaded.run with
  | .ok (client, payload) => authenticate config client stateKey payload
  | .error e => return .errorPage e

/-! ### A fresh request -/

/-- `PKCE.valid_challenge?/1`: 43 unpadded base64url characters. -/
def validChallenge (challenge : String) : Bool :=
  challenge.utf8ByteSize == 43 && challenge.toList.all fun c =>
    ('a' ≤ c && c ≤ 'z') || ('A' ≤ c && c ≤ 'Z') || ('0' ≤ c && c ≤ '9') || c == '-' || c == '_'

/-- `check_pkce/1` of the authorization endpoint. -/
def checkChallenge (params : Params) : Except Errors String :=
  if params.raw "code_challenge_method" ≠ some "S256" then .error (.new .invalidRequest)
  else match params.raw "code_challenge" with
    | some challenge =>
      if validChallenge challenge then .ok challenge else .error (.new .invalidRequest)
    | none => .error (.new .invalidRequest)

/-- Only the code flow is served. -/
def checkResponseType (params : Params) : Except Errors Unit :=
  if params.raw "response_type" = some "code" then .ok ()
  else .error (.new .unsupportedResponseType)

/-- `check_scope/3`: within what the client registered for and the server supports. -/
def checkScope (config : Config) (params : Params) (client : Client) :
    Except Errors (List String) := do
  let requested ← params.spaceList "scope"
  let requested :=
    if requested.isEmpty then (if client.scope.isEmpty then config.defaultScope else client.scope)
    else requested
  let permitted :=
    if client.scope.isEmpty then config.scopesSupported
    else client.scope.filter (config.scopesSupported.contains ·)
  Params.withinScope requested permitted

/-- The resource that the host makes of the one asked for. -/
def checkResource (config : Config) (params : Params) : Except Errors (Option String) := do
  let requested ← params.optional "resource"
  match config.host.resolveResource requested with
  | some resource => return resource
  | none => throw (.new .invalidTarget)

/-- The request that `start/3` parks once its redirect URI is validated. -/
def requestOf (config : Config) (params : Params) (client : Client) (redirectUri : String) :
    Except Errors AuthRequest := do
  checkResponseType params
  let challenge ← checkChallenge params
  let scope ← checkScope config params client
  let resource ← checkResource config params
  return {
    clientId := some client.clientId, redirectUri := some redirectUri, scope := scope,
    resource := resource, codeChallenge := some challenge,
    state := (params.optional "state").toOption.join,
    nonce := (params.optional "nonce").toOption.join }

/-- `start/3`: errors before the redirect URI is validated are rendered, later
ones go back to it. -/
def start (config : Config) (params : Params) : ServerM PageAnswer := do
  let resolved : Handler (Client × String) := do
    let clientId ← check (params.fetch "client_id" .invalidClient)
    let client ← resolveClient (some clientId)
    let requestedUri ← check (params.optional "redirect_uri")
    match config.host.resolveRedirectUri requestedUri client.redirectUris with
    | some uri => return (client, uri)
    | none => throw (.new .invalidRedirectUri)
  match ← resolved.run with
  | .error e => return .errorPage e
  | .ok (client, redirectUri) =>
    match requestOf config params client redirectUri with
    | .ok request => parkAndContinue config client request
    | .error e =>
      let error := e.withState (params.optional "state").toOption.join
      return .errorRedirect (some redirectUri) error config.issuer

/-- `GET /authorize`: a new login, or a parked one. -/
def authorize (config : Config) (params : Params) : ServerM PageAnswer :=
  match params.raw "login_state" with
  | some state => if state = "" then start config params else resume config state
  | none => start config params

/-! ### The decision -/

/-- The subject of a parked login, once the host has put one in. -/
def statedSubject (payload : Payload) : Except Errors String :=
  match payload.str "subject" with
  | some subject => if subject = "" then .error (.new .invalidRequest) else .ok subject
  | none => .error (.new .invalidRequest)

/-- The value that the consent page was given. -/
def checkCsrf (config : Config) (payload : Payload) (params : Params) : Except Errors Unit :=
  if ConsentGate.validCsrf config.host payload (params.raw "csrf_token") then .ok ()
  else .error (.new .invalidRequest)

/-- The decision on a loaded login state. -/
def decide (config : Config) (params : Params) (state : String) (payload : Payload)
    (client : Client) (subject : String) : ServerM PageAnswer := do
  let request := toRequest payload
  if params.raw "decision" = some "approve" then
    ConsentGate.record config client subject request.scope request.resource
    issueCode config client subject request state
  else
    let _ ← callStore (.takeLoginState state)
    let error := (Errors.new .accessDenied).withState request.state
    return .errorRedirect request.redirectUri error config.issuer

/-- `consent/2`: the browser is known by the CSRF value alone. -/
def consent (config : Config) (params : Params) : ServerM PageAnswer := do
  let loaded : Handler (String × Payload × Client × String) := do
    let state ← check (params.fetch "login_state")
    let payload ← loadState state
    check (checkCsrf config payload params)
    let client ← resolveClient (payload.str "client_id")
    let subject ← check (statedSubject payload)
    return (state, payload, client, subject)
  match ← loaded.run with
  | .ok (state, payload, client, subject) => decide config params state payload client subject
  | .error e => return .errorPage e

end AuthorizePlug

end NoizuMcp.Auth
