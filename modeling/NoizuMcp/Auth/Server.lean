import NoizuMcp.Auth.Store
import NoizuMcp.Foundation.Service
import NoizuMcp.Foundation.Words

/-!
# The authorization server: configuration, errors, parameters, effects

What the OAuth endpoints share: the error catalog
(`Noizu.MCP.Auth.Server.Errors`), parameter extraction (`Params`), the settings
the handlers read (`Config`), the checks on a client record (`Client`) and the
atomic operations a handler issues: a store call, a clock reading, a random
value, a signature, a client metadata document, the host's login.

A handler is a program over those operations (`Handler`); the private reason an
error carries for the log is not part of the model.
-/

set_option autoImplicit false

namespace NoizuMcp.Auth

open Foundation Protocol

/-! ## Errors -/

/-- The OAuth error codes the server renders. -/
inductive ErrorCode where
  | invalidRequest
  | invalidClient
  | invalidGrant
  | unauthorizedClient
  | unsupportedGrantType
  | unsupportedResponseType
  | invalidScope
  | invalidTarget
  | accessDenied
  | serverError
  | invalidRedirectUri
  deriving DecidableEq, Repr

/-- The HTTP status of the catalog entry for a code. -/
def ErrorCode.status : ErrorCode → Nat
  | .invalidClient => 401
  | .accessDenied => 403
  | .serverError => 500
  | _ => 400

/-- An error to render; `state` is echoed on a redirect. -/
structure Errors where
  code : ErrorCode
  status : Nat
  state : Option String := none
  deriving DecidableEq, Repr

/-- `Errors.new/1`. -/
def Errors.new (code : ErrorCode) : Errors := { code := code, status := code.status }

/-- `Errors.with_state/2`. -/
def Errors.withState (e : Errors) (state : Option String) : Errors := { e with state := state }

/-! ## Parameters -/

/-- A request parameter: sent once, sent several times, or in bracket form. -/
inductive ParamValue where
  | single (value : String)
  | repeated (values : List String)
  | nested
  deriving DecidableEq

/-- The parameters of a request. -/
abbrev Params := Table String ParamValue

namespace Params

/-- The longest parameter accepted, in bytes. -/
def maxValue : Nat := 4096

/-- `Params.optional/3`: blank reads as absent, and only a single value of
bounded length is a parameter at all. -/
def optional (params : Params) (key : String) (code : ErrorCode := .invalidRequest) :
    Except Errors (Option String) :=
  match params.lookup key with
  | none => .ok none
  | some (.single "") => .ok none
  | some (.single value) =>
    if value.utf8ByteSize > maxValue then .error (.new code) else .ok (some value)
  | some _ => .error (.new code)

/-- `Params.fetch/3`. -/
def fetch (params : Params) (key : String) (code : ErrorCode := .invalidRequest) :
    Except Errors String :=
  match optional params key code with
  | .ok none => .error (.new code)
  | .ok (some value) => .ok value
  | .error e => .error e

/-- `Map.get(params, key)` where only a single binary is of interest. -/
def raw (params : Params) (key : String) : Option String :=
  match params.lookup key with
  | some (.single value) => some value
  | _ => none

/-- `Params.space_list/3`: a space-delimited list without repetitions. -/
def spaceList (params : Params) (key : String) (code : ErrorCode := .invalidRequest) :
    Except Errors (List String) :=
  match optional params key code with
  | .ok none => .ok []
  | .ok (some value) => .ok (words value).eraseDups
  | .error e => .error e

/-- `Params.within_scope/2`. -/
def withinScope (requested permitted : List String) : Except Errors (List String) :=
  if requested.all (permitted.contains ·) then .ok requested else .error (.new .invalidScope)

/-- Every string a request's parameters carry. -/
def strings (params : Params) : List String :=
  params.rows.flatMap fun
    | .single value => [value]
    | .repeated values => values
    | .nested => []

variable {key value : String} {params : Params} {code : ErrorCode}

theorem raw_mem_strings (h : params.raw key = some value) : value ∈ params.strings := by
  unfold raw at h
  split at h
  · rename_i v hlookup
    cases h
    exact List.mem_flatMap.mpr ⟨_, Table.mem_rows.mpr ⟨key, hlookup⟩, by simp⟩
  · cases h

theorem optional_raw (h : optional params key code = .ok (some value)) :
    params.raw key = some value := by
  unfold optional at h
  split at h
  · cases h
  · cases h
  · rename_i v hne hlookup
    split at h
    · cases h
    · cases h
      simp [raw, hlookup]
  · cases h

theorem fetch_raw (h : fetch params key code = .ok value) : params.raw key = some value := by
  unfold fetch at h
  split at h
  · cases h
  · rename_i v hopt
    cases h
    exact optional_raw hopt
  · cases h

end Params

/-! ## Configuration -/

/-- The claims of an access token. -/
structure Claims where
  iss : String
  sub : String
  aud : Option String
  clientId : String
  scope : String
  jti : String
  iat : Int
  nbf : Int
  exp : Int
  familyId : Option String
  deriving DecidableEq

/-- Functions outside this model: the digests and signatures of the crypto
libraries, and the library's URL handling, of which the endpoints only use the
verdict. -/
structure Host where
  tokenHash : String → String
  s256 : String → String
  verifySecret : String → String → Bool
  sign : Claims → String
  verifyOwnToken : String → Option Claims
  basicCredentials : String → Except Errors (Option (String × String))
  resourceEqual : String → Option String → Bool
  resolveRedirectUri : Option String → List String → Option String
  resolveResource : Option String → Option (Option String)

/-- `Secret.equal?/2`: equality of SHA-256 digests. -/
def Host.secretEqual (host : Host) (a b : String) : Bool := host.tokenHash a == host.tokenHash b

/-- The settings the endpoints read. -/
structure Config where
  host : Host
  issuer : String
  accessTokenTtl : Nat
  refreshTokenTtl : Nat
  refreshFamilyTtl : Option Nat
  authorizationCodeTtl : Nat
  loginStateTtl : Nat
  trackAccessTokens : Bool
  consentEnabled : Bool := true
  consentTtl : Option Nat := none
  scopesSupported : List String
  defaultScope : List String

/-! ## Effects -/

/-- What the host's login says about the browser behind a request. -/
inductive UpstreamAnswer where
  | ok (subject : String)
  | redirect (url : String)
  | sent
  | error
  deriving DecidableEq

/-- The atomic operations of a request handler. -/
inductive Op where
  | store (call : StoreCall)
  | utcNow
  | generateToken
  | generateId
  | sign (claims : Claims)
  | cimdResolve (clientId : String) (stored : Option Client)
  | upstreamAuthenticate (stateKey : String)
  deriving DecidableEq

/-- The answers of the operations. A resolved metadata document comes with
whether it was fetched just now. -/
@[reducible] def Op.Res : Op → Type
  | .store call => call.Answer
  | .utcNow => DateTime
  | .generateToken => String
  | .generateId => String
  | .sign _ => String
  | .cimdResolve _ _ => Except Errors (Client × Bool)
  | .upstreamAuthenticate _ => UpstreamAnswer

/-- A request handler without failure. -/
abbrev ServerM := Prog Op Op.Res

/-- A request handler that may end with an error to render. -/
abbrev Handler := ExceptT Errors ServerM

/-- An operation with its answer. -/
abbrev ServerEvent := Event Op Op.Res

/-- Issue a store call. -/
def callStore (call : StoreCall) : ServerM call.Answer := Prog.perform (Op.store call)

/-- `DateTime.utc_now/0`. -/
def utcNow : ServerM DateTime := Prog.perform Op.utcNow

/-- `Store.generate_token/0`. -/
def generateToken : ServerM String := Prog.perform Op.generateToken

/-- `Store.generate_id/0`. -/
def generateId : ServerM String := Prog.perform Op.generateId

/-- `CIMD.resolve/3`: a cached or freshly fetched client metadata document. -/
def cimdResolve (clientId : String) (stored : Option Client) :
    ServerM (Except Errors (Client × Bool)) := Prog.perform (Op.cimdResolve clientId stored)

/-- A pure check inside a handler. -/
def check {α : Type} (r : Except Errors α) : Handler α := ExceptT.mk (pure r)

/-! ## Clients -/

namespace Client

/-- The grant types the server supports. -/
def grantTypesSupported : List String := ["authorization_code", "refresh_token"]

/-- `Client.supports_grant?/2`. -/
def supportsGrant (client : Client) (grant : String) : Bool := client.grantTypes.contains grant

/-- `Client.active?/1`. -/
def active (client : Client) : Bool := client.disabledAt.isNone

/-- `Client.requires_consent?/2`: only a preconfigured client may be exempt. -/
def requiresConsent (client : Client) (config : Config) : Bool :=
  match client.clientIdKind with
  | .registered => true
  | .cimd => true
  | .preconfigured => config.consentEnabled

/-- `Client.authenticate/3`. -/
def authenticate (client : Client) (presented : Option String) (host : Host) :
    Except Errors Unit :=
  if client.tokenEndpointAuthMethod = "none" then
    match presented with
    | none => .ok ()
    | some _ => .error (.new .invalidClient)
  else
    match client.secretHash, presented with
    | some stored, some candidate =>
      if host.verifySecret candidate stored then .ok () else .error (.new .invalidClient)
    | _, _ => .error (.new .invalidClient)

end Client

/-- `CIMD.cimd_client_id?/1`. -/
def cimdClientId (clientId : String) : Bool := "https://".toList.isPrefixOf clientId.toList

/-- `Server.resolve_client/2`: a stored client, or a metadata document fetched
and cached on the spot. -/
def resolveClient (clientId : Option String) : Handler Client :=
  match clientId with
  | none => throw (.new .invalidClient)
  | some clientId => do
    let answer ← (callStore (.getClient clientId) : ServerM _)
    let stored : Option Client := answer.toOption
    match stored with
    | some client =>
      if !client.active then throw (.new .invalidClient)
      else if client.clientIdKind != .cimd then return client
      else resolveCimd clientId stored
    | none => resolveCimd clientId none
where
  resolveCimd (clientId : String) (stored : Option Client) : Handler Client := do
    if cimdClientId clientId then
      let (client, fetched) ← ExceptT.mk (cimdResolve clientId stored)
      if fetched then
        let _ ← (callStore (.putClient client) : ServerM _)
      return client
    else throw (.new .invalidClient)

/-- `PlugSupport.client_credentials/2`: the Basic header, else the parameters. -/
def clientCredentials (host : Host) (authorization : Option String) (params : Params) :
    Except Errors (String × Option String) := do
  match ← (match authorization with
    | none => .ok none
    | some header => host.basicCredentials header) with
  | some (clientId, secret) => return (clientId, some secret)
  | none =>
    let clientId ← params.fetch "client_id" .invalidClient
    let secret ← params.optional "client_secret"
    return (clientId, secret)

/-- `authenticate_client/3` of the token and revocation endpoints. -/
def authenticateClient (config : Config) (authorization : Option String) (params : Params) :
    Handler Client := do
  let (clientId, secret) ← check (clientCredentials config.host authorization params)
  let client ← resolveClient (some clientId)
  check (client.authenticate secret config.host)
  return client

end NoizuMcp.Auth
