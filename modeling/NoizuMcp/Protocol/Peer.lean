import Mathlib.Data.Finset.Basic
import NoizuMcp.Foundation.Table
import NoizuMcp.Protocol.JsonRpc

/-!
# The session core of either end

`Noizu.MCP.Peer`: one end of a connection as a pure state machine. A decoded message
gives a new state and the effects that the owning process carries out. A clause that
no message matches, or a field of the wrong shape that is passed on to a function
that takes maps only, raises in the owning process; `ingest` is then `none`.
-/

set_option autoImplicit false

namespace NoizuMcp.Protocol

open Foundation

/-! ## Methods and versions -/

/-- The two ends of a connection. -/
inductive Role where
  | server
  | client
  deriving DecidableEq, Repr

/-- Who may send a method. -/
inductive Direction where
  | clientToServer
  | serverToClient
  | both
  deriving DecidableEq, Repr

/-- `Protocol.Methods`: every method with its direction. -/
def methods : List (String × Direction) :=
  [("initialize", .clientToServer), ("notifications/initialized", .clientToServer),
    ("ping", .both), ("tools/list", .clientToServer), ("tools/call", .clientToServer),
    ("notifications/tools/list_changed", .serverToClient), ("resources/list", .clientToServer),
    ("resources/templates/list", .clientToServer), ("resources/read", .clientToServer),
    ("resources/subscribe", .clientToServer), ("resources/unsubscribe", .clientToServer),
    ("notifications/resources/list_changed", .serverToClient),
    ("notifications/resources/updated", .serverToClient), ("prompts/list", .clientToServer),
    ("prompts/get", .clientToServer), ("notifications/prompts/list_changed", .serverToClient),
    ("completion/complete", .clientToServer), ("sql/schema", .clientToServer),
    ("sql/scan", .clientToServer), ("sql/modify", .clientToServer),
    ("sync/capabilities", .clientToServer), ("sync/snapshot", .clientToServer),
    ("sync/changes", .clientToServer), ("sync/mutate", .clientToServer),
    ("sync/operation", .clientToServer), ("logging/setLevel", .clientToServer),
    ("notifications/message", .serverToClient), ("sampling/createMessage", .serverToClient),
    ("elicitation/create", .serverToClient), ("roots/list", .serverToClient),
    ("notifications/roots/list_changed", .clientToServer), ("notifications/cancelled", .both),
    ("notifications/progress", .both)]

/-- `Methods.receivable?/2`. -/
def receivable (method : String) (role : Role) : Bool :=
  match methods.lookup method with
  | some .both => true
  | some .clientToServer => role == .server
  | some .serverToClient => role == .client
  | none => false

/-- `Version.supported/0`, the latest version first. -/
def supportedVersions : List String := ["2025-11-25", "2025-06-18"]

/-- The version that is offered. -/
def latestVersion : String := "2025-11-25"

/-- `Version.supported?/1` of any value. -/
def supportedVersion : Option Json → Option String
  | some (.str version) => if version ∈ supportedVersions then some version else none
  | _ => none

/-- `Version.negotiate/1`. -/
def negotiate (requested : Option Json) : String := (supportedVersion requested).getD latestVersion

/-! ## Implementations -/

/-- `Types.Implementation`; an absent optional field is `null`. -/
structure Implementation where
  name : Json
  version : Json
  title : Json := .null
  description : Json := .null
  websiteUrl : Json := .null
  icons : Json := .null
  deriving DecidableEq

namespace Implementation

/-- An entry that is left out when it is null. -/
def putUnlessNil (key : String) (value : Json) : Fields :=
  if value = .null then [] else [(key, value)]

/-- The implementation on the wire. -/
def toMap (impl : Implementation) : Json :=
  .obj ([("name", impl.name), ("version", impl.version)] ++ putUnlessNil "title" impl.title ++
    putUnlessNil "description" impl.description ++ putUnlessNil "websiteUrl" impl.websiteUrl ++
    putUnlessNil "icons" impl.icons)

/-- Takes a map only. -/
def fromMap : Json → Option Implementation
  | .obj fields => some {
      name := Json.orElse (fields.lookup "name") (.str "unknown")
      version := Json.orElse (fields.lookup "version") (.str "0.0.0")
      title := (fields.lookup "title").getD .null
      description := (fields.lookup "description").getD .null
      websiteUrl := (fields.lookup "websiteUrl").getD .null
      icons := (fields.lookup "icons").getD .null }
  | _ => none

end Implementation

/-! ## State and effects -/

/-- How far the handshake has come. -/
inductive Phase where
  | handshake
  | initializing
  | ready
  | closing
  deriving DecidableEq, Repr

/-- What an outbound request is to be recognised by: the initialize request, the id
itself, or the process that waits for it. -/
inductive Tag where
  | init
  | request (id : Nat)
  | serverRequest (caller : Nat)
  deriving DecidableEq, Repr

/-- A request that waits for its answer. -/
structure PendingOut where
  tag : Tag
  method : String
  progressToken : Option Id
  deriving DecidableEq, Repr

/-- How an outbound request ended. -/
abbrev Outcome := Except RpcError Fields

/-- One end of a connection: the handshake, and the requests both ways. -/
structure Peer where
  role : Role
  phase : Phase := .handshake
  protocolVersion : Option String := none
  localInfo : Implementation
  localCapabilities : Json := .obj []
  instructions : Option String := none
  remoteInfo : Option Implementation := none
  remoteCapabilities : Option Json := none
  nextId : Nat := 1
  pendingOut : Table Id PendingOut := ∅
  pendingIn : Table Id String := ∅
  cancelledIn : Finset Id := ∅
  progressIndex : Table Id Nat := ∅

/-- Why a client gives up the handshake. -/
inductive InitializeFailure where
  | unsupportedVersion (version : Json)
  | error (error : RpcError)
  deriving DecidableEq

/-- What the owner of a peer is to do. -/
inductive Effect where
  | send (message : Message)
  | dispatch (method : String) (id : Id) (params : Option Fields)
  | notice (method : String) (params : Option Fields)
  | resolve (tag : Tag) (id : Id) (outcome : Outcome)
  | cancelIn (id : Id) (reason : Json)
  | progress (tag : Tag) (id : Nat) (params : Option Fields)
  | ready (remoteInfo : Option Implementation)
  | initializeResult (result : Fields)
  | initializeFailed (reason : InitializeFailure)

/-- An effect of a notification that is only passed on. -/
def Effect.quiet : Effect → Bool
  | .notice _ _ => true
  | .cancelIn _ _ => true
  | .progress _ _ _ => true
  | _ => false

namespace Peer

/-! ## Outbound -/

/-- The parameters with the progress token put into `_meta`; `Map.put/3` takes a map
only. -/
def withProgressToken (params : Option Fields) (token : Id) : Option Fields :=
  let fields := params.getD []
  let rest := fields.filter (·.1 != "_meta")
  match fields.lookup "_meta" with
  | none => some (rest ++ [("_meta", .obj [("progressToken", token.toJson)])])
  | some (.obj entries) => some (rest ++ [("_meta",
      .obj (entries.filter (·.1 != "progressToken") ++ [("progressToken", token.toJson)]))])
  | some _ => none

/-- `request/4` on parameters that are ready to send. -/
def issue (peer : Peer) (method : String) (params : Option Fields) (tag : Tag)
    (token : Option Id) : Peer × Nat × Message :=
  let id := peer.nextId
  ({ peer with
      nextId := id + 1
      pendingOut := peer.pendingOut.insert (.int id) ⟨tag, method, token⟩
      progressIndex := match token with
        | some token => peer.progressIndex.insert token id
        | none => peer.progressIndex }, id, .request (.int id) method params)

/-- `request/4`: none where the code raises. -/
def request (peer : Peer) (method : String) (params : Option Fields) (tag : Option Tag := none)
    (token : Option Id := none) : Option (Peer × Nat × Message) :=
  let tag := tag.getD (.request peer.nextId)
  match token with
  | none => some (peer.issue method params tag none)
  | some progress =>
    (withProgressToken params progress).map fun fields => peer.issue method (some fields) tag token

/-- `finish_inbound/3`; `none` is `:drop`. -/
def finishInbound (peer : Peer) (id : Id) (message : Message) : Peer × Option Message :=
  if id ∈ peer.cancelledIn then ({ peer with cancelledIn := peer.cancelledIn.erase id }, none)
  else if (peer.pendingIn.lookup id).isSome then
    ({ peer with pendingIn := peer.pendingIn.erase id }, some message)
  else (peer, none)

/-- `respond/3`: nothing is sent for a request that is not open. -/
def respond (peer : Peer) (id : Id) (result : Fields) : Peer × Option Message :=
  peer.finishInbound id (.response id result)

/-- `respond_error/3`, likewise. -/
def respondError (peer : Peer) (id : Id) (error : RpcError) : Peer × Option Message :=
  peer.finishInbound id (.errorResponse ⟨some id, error⟩)

/-- The progress index without the token of a request that is over. -/
def forgetToken (peer : Peer) (token : Option Id) : Table Id Nat :=
  match token with
  | some token => peer.progressIndex.erase token
  | none => peer.progressIndex

/-- `cancel_out/3`: the notification to send and the tag, if the request was pending. -/
def cancelOut (peer : Peer) (id : Id) (reason : Option String) :
    Peer × Option Message × Option Tag :=
  match peer.pendingOut.lookup id with
  | none => (peer, none, none)
  | some entry =>
    ({ peer with
        pendingOut := peer.pendingOut.erase id
        progressIndex := peer.forgetToken entry.progressToken },
      some (.notification "notifications/cancelled" (some (("requestId", id.toJson) ::
        (reason.map fun reason => ("reason", Json.str reason)).toList))),
      some entry.tag)

/-! ## Client handshake -/

/-- `init_request/1`: a client in the handshake phase only. -/
def initRequest (peer : Peer) : Option (Peer × Message) :=
  if peer.role = .client ∧ peer.phase = .handshake then
    let params : Fields := [("protocolVersion", .str latestVersion),
      ("capabilities", peer.localCapabilities), ("clientInfo", peer.localInfo.toMap)]
    let (peer, _, message) := peer.issue "initialize" (some params) .init none
    some ({ peer with phase := .initializing }, message)
  else none

/-- `initialized/1`: a client that is initializing only. -/
def initialized (peer : Peer) : Option (Peer × Message × List Effect) :=
  if peer.role = .client ∧ peer.phase = .initializing then
    some ({ peer with phase := .ready }, .notification "notifications/initialized" none,
      [.ready peer.remoteInfo])
  else none

/-! ## Ingest -/

/-- The `initialize` request at a server. -/
def ingestInitialize (peer : Peer) (id : Id) (params : Option Fields) :
    Option (Peer × List Effect) :=
  if peer.phase = .handshake then
    let params := params.getD []
    let negotiated := negotiate (params.lookup "protocolVersion")
    let result : Fields := [("protocolVersion", .str negotiated),
      ("capabilities", peer.localCapabilities), ("serverInfo", peer.localInfo.toMap)] ++
        (peer.instructions.map fun text => ("instructions", Json.str text)).toList
    (Implementation.fromMap (Json.orElse (params.lookup "clientInfo") (.obj []))).map fun info =>
      ({ peer with
          phase := .initializing
          protocolVersion := some negotiated
          remoteInfo := some info
          remoteCapabilities := some (Json.orElse (params.lookup "capabilities") (.obj [])) },
        [.send (.response id result)])
  else
    some (peer, [.send (.errorResponse ⟨some id, .invalidRequest "Already initialized"⟩)])

/-- Any other request. -/
def ingestRequest (peer : Peer) (id : Id) (method : String) (params : Option Fields) :
    Peer × List Effect :=
  if peer.phase ≠ .ready then
    (peer, [.send (.errorResponse ⟨some id, .invalidRequest "Session not initialized"⟩)])
  else if !receivable method peer.role then
    (peer, [.send (.errorResponse ⟨some id, .methodNotFound method⟩)])
  else if (peer.pendingIn.lookup id).isSome then
    (peer, [.send (.errorResponse ⟨some id, .invalidRequest "Duplicate in-flight request id"⟩)])
  else ({ peer with pendingIn := peer.pendingIn.insert id method }, [.dispatch method id params])

/-- `notifications/cancelled`. -/
def ingestCancelled (peer : Peer) (params : Option Fields) : Peer × List Effect :=
  let fields := params.getD []
  match (fields.lookup "requestId").bind Id.ofJson with
  | some id =>
    if (peer.pendingIn.lookup id).isSome then
      ({ peer with
          pendingIn := peer.pendingIn.erase id
          cancelledIn := insert id peer.cancelledIn },
        [.cancelIn id ((fields.lookup "reason").getD .null)])
    else (peer, [])
  | none => (peer, [])

/-- `notifications/progress`. -/
def ingestProgress (peer : Peer) (params : Option Fields) : List Effect :=
  match ((params.getD []).lookup "progressToken").bind Id.ofJson with
  | some token =>
    match peer.progressIndex.lookup token with
    | some id =>
      match peer.pendingOut.lookup (.int id) with
      | some entry => [.progress entry.tag id params]
      | none => []
    | none => []
  | none => []

/-- The server's answer to `initialize`, at the client. -/
def clientInitializeOutcome (peer : Peer) : Outcome → Option (Peer × List Effect)
  | .ok result =>
    match supportedVersion (result.lookup "protocolVersion") with
    | some version =>
      (Implementation.fromMap (Json.orElse (result.lookup "serverInfo") (.obj []))).map
        fun info =>
          ({ peer with
              protocolVersion := some version
              remoteInfo := some info
              remoteCapabilities := some (Json.orElse (result.lookup "capabilities") (.obj [])) },
            [.initializeResult result])
    | none =>
      some ({ peer with phase := .closing }, [.initializeFailed
        (.unsupportedVersion ((result.lookup "protocolVersion").getD .null))])
  | .error error => some ({ peer with phase := .closing }, [.initializeFailed (.error error)])

/-- `resolve_out/3`: a late response is ignored. -/
def resolveOut (peer : Peer) (id : Id) (outcome : Outcome) : Option (Peer × List Effect) :=
  match peer.pendingOut.lookup id with
  | none => some (peer, [])
  | some entry =>
    if entry.tag = .init then
      clientInitializeOutcome { peer with pendingOut := peer.pendingOut.erase id } outcome
    else
      some ({ peer with
          pendingOut := peer.pendingOut.erase id
          progressIndex := peer.forgetToken entry.progressToken },
        [.resolve entry.tag id outcome])

/-- `ingest/2`: one message; none where the code raises. -/
def ingest (peer : Peer) : Message → Option (Peer × List Effect)
  | .request id method params =>
    if peer.role = .server ∧ method = "initialize" then peer.ingestInitialize id params
    else if method = "ping" then some (peer, [.send (.response id [])])
    else some (peer.ingestRequest id method params)
  | .notification method params =>
    if peer.role = .server ∧ peer.phase = .initializing ∧
        method = "notifications/initialized" then
      some ({ peer with phase := .ready }, [.ready peer.remoteInfo])
    else if method = "notifications/cancelled" then some (peer.ingestCancelled params)
    else if method = "notifications/progress" then some (peer, peer.ingestProgress params)
    else some (peer, if receivable method peer.role then [.notice method params] else [])
  | .response id result => peer.resolveOut id (.ok result)
  | .errorResponse response =>
    match response.id with
    | some id => peer.resolveOut id (.error response.error)
    -- no request has the id `nil`
    | none => some (peer, [])

/-! ## What a message can bring about -/

section Ingest

variable {peer peer' : Peer} {effects : List Effect} {id : Id} {method : String}
  {params : Option Fields}

/-- A request is answered at once or handed on. -/
theorem ingest_request (h : peer.ingest (.request id method params) = some (peer', effects)) :
    (∃ result, effects = [.send (.response id result)]) ∨
      (∃ error, effects = [.send (.errorResponse ⟨some id, error⟩)]) ∨
      effects = [.dispatch method id params] := by
  simp only [ingest] at h
  split_ifs at h with hinit hping
  · unfold ingestInitialize at h
    split_ifs at h with hphase
    · obtain ⟨info, _, heq⟩ := Option.map_eq_some_iff.mp h
      cases heq
      exact .inl ⟨_, rfl⟩
    · cases h
      exact .inr (.inl ⟨_, rfl⟩)
  · cases h
    exact .inl ⟨_, rfl⟩
  · have heq := congrArg Prod.snd (Option.some.inj h)
    unfold ingestRequest at heq
    split_ifs at heq <;> cases heq
    on_goal 4 => exact .inr (.inr rfl)
    all_goals exact .inr (.inl ⟨_, rfl⟩)

/-- A notification is passed on, if anything; only a server becomes ready by one. -/
theorem ingest_notification
    (h : peer.ingest (.notification method params) = some (peer', effects)) :
    effects = [] ∨ (∃ effect, effects = [effect] ∧ effect.quiet = true) ∨
      (peer.role = .server ∧ effects = [.ready peer.remoteInfo]) := by
  simp only [ingest] at h
  split_ifs at h with hready
  · cases h
    exact .inr (.inr ⟨hready.1, rfl⟩)
  · have heq := congrArg Prod.snd (Option.some.inj h)
    unfold ingestCancelled at heq
    dsimp only at heq
    split at heq
    · split_ifs at heq <;> cases heq
      · exact .inr (.inl ⟨_, rfl, rfl⟩)
      · exact .inl rfl
    · exact .inl heq.symm
  · cases h
    unfold ingestProgress
    split
    · split
      · split
        · exact .inr (.inl ⟨_, rfl, rfl⟩)
        · exact .inl rfl
      · exact .inl rfl
    · exact .inl rfl
  · cases h
    exact .inr (.inl ⟨_, rfl, rfl⟩)
  · cases h
    exact .inl rfl

end Ingest

end Peer

end NoizuMcp.Protocol
