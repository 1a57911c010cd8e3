import NoizuMcp.Auth.AuthorizeEndpoint

/-!
# The authorization server in service

All four endpoints over one store, serving any number of requests at once. The
requests are sent by parties (browsers and clients); the host's login knows each
party as one fixed subject.

Random values are unpredictable in the symbolic sense. A drawn value differs
from every value drawn or presented before it, and no request carries a drawn
value before the request that drew it has been answered. Once it has, anyone may
carry it: parties pass on what they were shown. Values are compared by their
digest, as the store compares them.

The clock is a move of the world. With `forward` it never runs backwards.
-/

set_option autoImplicit false

namespace NoizuMcp.Auth

open Foundation Protocol

/-- The endpoint a request goes to, with what it carries. -/
inductive Endpoint where
  | authorize (params : Params)
  | consent (params : Params)
  | token (authorization : Option String) (params : Params)
  | revoke (authorization : Option String) (params : Params)

/-- A request with its sender. -/
structure Request where
  sender : Nat
  endpoint : Endpoint

/-- The parameters of a request. -/
def Endpoint.params : Endpoint → Params
  | .authorize params => params
  | .consent params => params
  | .token _ params => params
  | .revoke _ params => params

/-- The answer to a request. -/
inductive ServerAnswer where
  | page (answer : PageAnswer)
  | token (answer : Except Errors TokenResponse)
  | revoked (answer : Except Errors Unit)

/-- A deployment: settings, store, who the host takes each party for, and
whether its clock only runs forward. -/
structure Deployment where
  config : Config
  adapter : StoreAdapter
  subjectOf : Nat → String
  forward : Bool

/-- What the requests share: the store and the clock. -/
structure World (State : Type) where
  store : State
  clock : DateTime

/-- What a scheduler chooses when an operation runs. -/
structure Choice where
  value : String := ""
  cimd : Except Errors (Client × Bool) := .error (.new .invalidClient)
  upstream : UpstreamAnswer := .error

/-- Moves that no request makes: the clock, and a client registration. -/
inductive Move where
  | tick (now : DateTime)
  | register (client : Client)

namespace Deployment

variable (D : Deployment)

/-- The server with its requests in service. -/
abbrev Server := Pool Request ServerAnswer (World D.adapter.State) Op Op.Res

/-- The handler of an endpoint. -/
def handler (request : Request) : ServerM ServerAnswer :=
  match request.endpoint with
  | .authorize params => do return .page (← AuthorizePlug.authorize D.config params)
  | .consent params => do return .page (← AuthorizePlug.consent D.config params)
  | .token authorization params => do
    return .token (← (TokenPlug.serve D.config authorization params).run)
  | .revoke authorization params => do
    return .revoked (← RevokePlug.serve D.config authorization params)

variable {D}

/-- The random value an operation drew. -/
def drawnBy (e : ServerEvent) : Option String :=
  match e with
  | ⟨.generateToken, value⟩ => some value
  | ⟨.generateId, value⟩ => some value
  | _ => none

/-- Every random value drawn so far. -/
def drawn (p : D.Server) : List String := p.log.filterMap fun e => drawnBy e.2

/-- Every string a request has carried so far. -/
def presented (p : D.Server) : List String :=
  p.threads.flatMap fun t => t.1.endpoint.params.strings

/-- Two values have the same digest. -/
def sameDigest (D : Deployment) (a b : String) : Bool := D.config.host.secretEqual a b

/-- A value that differs from everything drawn or presented before. -/
def isFresh (p : D.Server) (value : String) : Bool :=
  (drawn p ++ presented p).all fun other => !D.sameDigest value other

/-- Request `i` has been answered. -/
def isAnswered (p : D.Server) (i : Nat) : Bool :=
  match p.threads[i]? with
  | some (_, .ret _) => true
  | _ => false

/-- A request carries a drawn value only after the request that drew it has been
answered. -/
def admits (p : D.Server) (request : Request) : Bool :=
  request.endpoint.params.strings.all fun value =>
    p.log.all fun e =>
      match drawnBy e.2 with
      | some other => !D.sameDigest value other || isAnswered p e.1
      | none => true

/-- One operation of request `i`. The store and the clock are one reading; the
host takes the sender for its fixed subject or for nobody. -/
def exec (p : D.Server) (i : Nat) :
    (op : Op) → Choice → Option (op.Res × World D.adapter.State)
  | .store call, choice =>
    let out := D.adapter.perform p.world.clock choice.value call p.world.store
    some (out.1, { p.world with store := out.2 })
  | .utcNow, _ => some (p.world.clock, p.world)
  | .generateToken, choice => if isFresh p choice.value then some (choice.value, p.world) else none
  | .generateId, choice => if isFresh p choice.value then some (choice.value, p.world) else none
  | .sign claims, _ => some (D.config.host.sign claims, p.world)
  | .cimdResolve _ _, choice => some (choice.cimd, p.world)
  | .upstreamAuthenticate _, choice =>
    match p.threads[i]?, choice.upstream with
    | some (request, _), .ok _ => some (.ok (D.subjectOf request.sender), p.world)
    | _, .ok _ => none
    | _, answer => some (answer, p.world)

/-- Only store calls change the world. -/
theorem exec_world {p : D.Server} {i : Nat} {op : Op} {choice : Choice} {r : op.Res}
    {w : World D.adapter.State} (h : exec p i op choice = some (r, w))
    (hop : ∀ call, op ≠ .store call) : w = p.world := by
  cases op with simp only [exec] at h
  | store call => exact absurd rfl (hop call)
  | utcNow | sign _ | cimdResolve _ _ =>
    cases h
    rfl
  | generateToken | generateId =>
    split at h
    · cases h
      rfl
    · cases h
  | upstreamAuthenticate =>
    split at h
    · cases h
      rfl
    · cases h
    · cases h
      rfl

/-- One operation of a request served alone; `choice` answers what the environment
decides. -/
def execAlone (D : Deployment) (choice : Choice) :
    (op : Op) → World D.adapter.State → op.Res × World D.adapter.State
  | .store call, w =>
    let out := D.adapter.perform w.clock choice.value call w.store
    (out.1, { w with store := out.2 })
  | .utcNow, w => (w.clock, w)
  | .generateToken, w => (choice.value, w)
  | .generateId, w => (choice.value, w)
  | .sign claims, w => (D.config.host.sign claims, w)
  | .cimdResolve _ _, w => (choice.cimd, w)
  | .upstreamAuthenticate _, w => (choice.upstream, w)

/-- The moves of the world. -/
def moves (p : D.Server) : Move → Option (World D.adapter.State)
  | .tick now =>
    if D.forward && decide (now < p.world.clock) then none
    else some { p.world with clock := now }
  | .register client =>
    let out := D.adapter.perform p.world.clock "" (.putClient client) p.world.store
    some { p.world with store := out.2 }

variable (D)

/-- The deployment as a service. -/
def service : Service Request ServerAnswer (World D.adapter.State) Choice Move Op Op.Res where
  handler := D.handler
  admits := admits
  exec := exec
  moves := moves

/-- The server before its first request, at a clock reading. -/
def initial (now : DateTime) : D.Server := Pool.idle ⟨D.adapter.empty, now⟩

/-- A state the server can get into. -/
def Reachable (p : D.Server) : Prop := ∃ now, D.service.Reach (D.initial now) p

variable {D}

theorem Reachable.trans {p q : D.Server} (h : D.Reachable p) (h' : D.service.Reach p q) :
    D.Reachable q := by
  obtain ⟨now, hreach⟩ := h
  exact ⟨now, Relation.ReflTransGen.trans hreach h'⟩

end Deployment

/-! ## A small deployment

One public client, digests that are the values themselves, and the requests of a
login and its tokens: the concrete runs of the development are runs of it. -/

namespace Sample

def challenge : String := "AAAAAAAAAAAAAAAAAAAAAAAAAAAAAAAAAAAAAAAAAAA"

def host : Host where
  tokenHash := id
  s256 := fun _ => challenge
  verifySecret := fun _ _ => false
  sign := fun _ => "jwt"
  verifyOwnToken := fun _ => none
  basicCredentials := fun _ => .ok none
  resourceEqual := fun _ _ => true
  resolveRedirectUri := fun requested uris => requested.or uris.head?
  resolveResource := fun requested => some requested

def config : Config where
  host := host
  issuer := "https://issuer"
  accessTokenTtl := 900
  refreshTokenTtl := 1000
  refreshFamilyTtl := some 10000
  authorizationCodeTtl := 60
  loginStateTtl := 600
  trackAccessTokens := false
  consentEnabled := false
  scopesSupported := ["mcp", "files"]
  defaultScope := ["mcp"]

def client : Client where
  clientId := "app"
  clientIdKind := .preconfigured
  redirectUris := ["https://app/cb"]

/-- The same client, registered by itself: it requires consent. -/
def consentClient : Client := { client with clientIdKind := .registered }

/-- Party `0` is the owner of the account; everybody else is a stranger. -/
def subjectOf (party : Nat) : String := if party = 0 then "alice" else "mallory"

def params (pairs : List (String × String)) : Params :=
  pairs.foldl (fun params pair => params.insert pair.1 (.single pair.2)) ∅

/-- `GET /authorize` of party `sender`. -/
def authorizeRequest (sender : Nat) : Request where
  sender := sender
  endpoint := .authorize (params [("client_id", "app"), ("redirect_uri", "https://app/cb"),
    ("response_type", "code"), ("scope", "mcp files"), ("code_challenge", challenge),
    ("code_challenge_method", "S256")])

/-- `GET /authorize` that comes back on a login state. -/
def resumeRequest (sender : Nat) (state : String) : Request where
  sender := sender
  endpoint := .authorize (params [("login_state", state)])

/-- `POST /consent` that approves. -/
def approveRequest (sender : Nat) (state csrfToken : String) : Request where
  sender := sender
  endpoint := .consent (params [("login_state", state), ("csrf_token", csrfToken),
    ("decision", "approve")])

/-- `POST /token` with an authorization code. -/
def codeRequest (code : String) : Request where
  sender := 0
  endpoint := .token none (params [("client_id", "app"), ("redirect_uri", "https://app/cb"),
    ("grant_type", "authorization_code"), ("code", code), ("code_verifier", challenge)])

/-- `POST /token` with a refresh token. -/
def refreshRequest (token : String) : Request where
  sender := 0
  endpoint := .token none (params [("client_id", "app"), ("grant_type", "refresh_token"),
    ("refresh_token", token)])

/-- `POST /revoke`, with or without a hint. -/
def revokeParams (token : String) (hint : Option String) : Params :=
  match hint with
  | none => params [("client_id", "app"), ("token", token)]
  | some hint => params [("client_id", "app"), ("token", token), ("token_type_hint", hint)]

/-- Run the next operation of request `i`; `value` is what it draws, if it draws. -/
def go (i : Nat) (value : String) : Action Request Choice Move := .run i { value := value }

/-- The operations of request `i`, with the values they draw. -/
def steps (i : Nat) (values : List String) : List (Action Request Choice Move) :=
  values.map (go i)

/-- The client registers; party `0` logs in as request `0` and is given the code
`"code-1"` with the family `"family-1"`. -/
def login : List (Action Request Choice Move) :=
  [.move (.register client), .arrive (authorizeRequest 0)] ++
    steps 0 ["", "state-1", "csrf-1", ""] ++
    [.run 0 { upstream := .ok "" }] ++ steps 0 ["", "", "code-1", "family-1", "", "", ""]

/-- After the login, request `1` redeems the code for the refresh token `"token-1"`. -/
def redemption : List (Action Request Choice Move) :=
  login ++ [.arrive (codeRequest "code-1")] ++
    steps 1 ["", "", "", "jti-1", "", "token-1", "", "id-1", ""]

/-- After that, request `2` rotates it into `"token-2"`. -/
def rotation : List (Action Request Choice Move) :=
  redemption ++ [.arrive (refreshRequest "token-1")] ++
    steps 2 ["", "", "token-2", "", "id-2", "", "", "jti-2", ""]

end Sample

end NoizuMcp.Auth
