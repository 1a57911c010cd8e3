import NoizuMcp.Foundation.Processes
import NoizuMcp.Foundation.Words
import NoizuMcp.Protocol.Json
import NoizuMcp.Toolset.Persistence

/-!
# Upstream sessions

The engine serves other servers, its upstreams. A row of `servers` says how an upstream is
reached and with which credential: `auth_ref` is a reference that is resolved when a
connection is opened, or `passthrough`, and then the credential is the caller's own. A
session is a process that owns one connection to one upstream. It is registered under the
name of the row (the pooled session) or under the name and the subject of a principal.

A session keeps its row and its principal as they were when it started. Its connection
can be lost and opened again, always with what the session started with.
-/

set_option autoImplicit false

namespace NoizuMcp.Engine

open Foundation

open Protocol (Json)

open Toolset (Term Tool)

/-! ## Names -/

/-- `join/2`: the name of what an upstream offers, in the engine's namespace. -/
def join (server name : String) : String := server ++ String.singleton '.' ++ name

/-- `split/1`: at the first dot. -/
def split (name : String) : Option (String × String) := cutAt '.' name

/-- The name of an upstream has no dot, so its entries can be told apart. -/
theorem split_join {server : String} (h : '.' ∉ server.toList) (name : String) :
    split (join server name) = some (server, name) :=
  cutAt_append h name

/-! ## Rows -/

/-- A row of `servers`, as `stringify/1` gives it. -/
structure Row where
  name : String
  transport : String
  command : Option String := none
  url : Option String := none
  authRef : Option String := none
  enabled : Bool := true
  deriving DecidableEq

/-- The caller's own credential is used. -/
def Row.passthrough (row : Row) : Bool := row.authRef == some "passthrough"

/-! ## Credentials -/

/-- `%Principal{}`, with what a host put into its claims and its metadata. -/
structure Principal extends Toolset.Principal where
  claims : List (Term × Term) := []
  metadata : List (Term × Term) := []
  deriving DecidableEq

/-- A term that is a string and not empty. -/
def blankSafe : Option Term → Option String
  | some (.str value) => if value = "" then none else some value
  | _ => none

/-- `credential_candidates/1`: the raw token, the token claim, the subject. -/
def Principal.candidates (principal : Principal) : List (Option String) :=
  [ blankSafe (principal.metadata.lookup (.atom "raw_token")),
    blankSafe (principal.claims.lookup (.atom "token")),
    blankSafe (principal.claims.lookup (.str "token")),
    blankSafe (some principal.subject) ]

/-- `passthrough_credential/1`: the first candidate there is. -/
def passthroughCredential : Option Principal → Option String
  | none => none
  | some principal => principal.candidates.findSome? id

/-- What the host provides when a connection is opened: environment variables, the
configured secret resolver, and how a command line is split into words. -/
structure Host where
  getEnv : String → Option String := fun _ => none
  secretResolver : Option (String → Option String) := none
  splitCommand : String → List String := words

/-- The rest of a text that starts with some other text. -/
def after (start text : String) : Option String :=
  if start.toList.isPrefixOf text.toList then
    some (String.ofList (text.toList.drop start.toList.length))
  else none

theorem after_append (start rest : String) : after start (start ++ rest) = some rest := by
  have hstarts : start.toList.isPrefixOf (start ++ rest).toList = true := by simp
  rw [after, if_pos hstarts]
  simp

/-- A value that is there and not empty. -/
def filled : Option String → Option String
  | some value => if value = "" then none else some value
  | none => none

/-- `Credentials.resolve/1`. -/
def Host.resolve (host : Host) (ref : String) : Option String :=
  match filled (after "env:" ref) with
  | some var => filled (host.getEnv var)
  | none =>
    if (after "secret:" ref).isSome || (after "infisical:" ref).isSome then
      filled (host.secretResolver.bind fun resolver => resolver ref)
    else none

/-! ## Connections -/

/-- How a client is started. -/
inductive Transport where
  | stdio (executable : String) (args : List String) (env : List (String × String))
  | http (url : Option String) (headers : List (String × String))
  deriving DecidableEq

/-- A client that is connected. `syncs` says that the upstream speaks `sync` version 1. -/
structure Connection where
  credential : Option String
  transport : Transport
  syncs : Bool := false
  deriving DecidableEq

/-- A command with its arguments; a credential passed through goes into the environment. -/
def stdioTransport (host : Host) (command : Option String) (credential : Option String)
    (passthrough : Bool) : Except String Transport :=
  match host.splitCommand (command.getD "") with
  | [] => .error "stdio row has no command"
  | executable :: args =>
    .ok (.stdio executable args
      (if passthrough then
        (credential.map fun value => ("MCP_PASSTHROUGH_TOKEN", value)).toList
      else []))

/-- The credential goes into a header. -/
def httpTransport (url : Option String) (credential : Option String) : Transport :=
  .http url (credential.map fun value => ("authorization", "Bearer " ++ value)).toList

/-- How a row is reached. -/
def transportOpts (host : Host) (row : Row) (credential : Option String) :
    Except String Transport :=
  let passthrough := row.passthrough && credential.isSome
  if row.transport = "stdio" then stdioTransport host row.command credential passthrough
  else if row.transport = "http" then .ok (httpTransport row.url credential)
  else .error "unknown transport"

/-! ## Sessions -/

/-- A prompt, a resource or a resource template of an upstream: the name or uri it is
known by, and the rest of it. -/
structure Item where
  id : String
  fields : Json := .obj []
  deriving DecidableEq

/-- A relation that an upstream offers. -/
structure Relation where
  name : String
  kind : String := "dataset"
  writable : Bool := false
  fields : Json := .obj []
  deriving DecidableEq

/-- What an upstream lists. -/
structure Surfaces where
  tools : List Tool := []
  prompts : List Item := []
  resources : List Item := []
  templates : List Item := []
  relations : List Relation := []
  deriving DecidableEq

/-- What a session is registered under. -/
inductive Key where
  | pooled (name : String)
  | own (name : String) (subject : Term)
  deriving DecidableEq

/-- The states of a session. -/
inductive Status where
  | connecting
  | ready
  | error
  deriving DecidableEq

/-- `%Session{}`. The row and the principal are those it was started with. -/
structure Session where
  row : Row
  principal : Option Principal := none
  status : Status := .connecting
  client : Option Connection := none
  surfaces : Surfaces := {}
  deriving DecidableEq

namespace Session

/-- `key_for/2`. -/
def key (session : Session) : Key :=
  match session.principal with
  | none => .pooled session.row.name
  | some principal => .own session.row.name principal.subject

/-- `credential/1`: what a connection of the session is opened with. -/
def credential (host : Host) (session : Session) : Except String (Option String) :=
  match session.row.authRef with
  | none => .ok none
  | some ref =>
    if ref = "" then .ok none
    else if ref = "passthrough" then
      -- without a principal this is the catalog session, which carries no credential
      match session.principal with
      | none => .ok none
      | some principal =>
        match passthroughCredential (some principal) with
        | some value => .ok (some value)
        | none => .error "pass-through upstream requires a caller credential"
    else match host.resolve ref with
      | some value => .ok (some value)
      | none => .error ("auth_ref could not be resolved: " ++ ref)

/-- `open_client/1`. The handshake says whether the upstream speaks `sync`, or fails. -/
def openClient (host : Host) (handshake : Option Bool) (session : Session) :
    Except String Connection :=
  match session.credential host with
  | .error detail => .error detail
  | .ok credential =>
    match transportOpts host session.row credential with
    | .error detail => .error detail
    | .ok transport =>
      match handshake with
      | some syncs => .ok ⟨credential, transport, syncs⟩
      | none => .error "handshake failed"

/-- A session that has lost its connection. -/
def failed (session : Session) : Session :=
  { session with status := .error, client := none, surfaces := {} }

/-! ### What a session keeps -/

theorem key_eq_pooled_iff {session : Session} {name : String} :
    session.key = .pooled name ↔ session.row.name = name ∧ session.principal = none := by
  unfold key
  cases session.principal with
  | none => simp
  | some => simp

end Session

/-- The sessions that are alive. The registry has one session per key. -/
abbrev Sessions := Processes Session

namespace Sessions

/-- The process that is registered under the key. -/
def sessionPid (sessions : Sessions) (key : Key) : Option Nat :=
  sessions.find? fun session => session.key == key

variable {sessions : Sessions} {pid : Nat}

theorem stands_sessionPid {key : Key} (h : sessions.sessionPid key = some pid) :
    sessions.Stands pid fun session => session.key = key :=
  (Processes.stands_of_find? h).mono fun _ htest => eq_of_beq htest

end Sessions

end NoizuMcp.Engine
