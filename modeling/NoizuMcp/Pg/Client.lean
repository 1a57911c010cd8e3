import NoizuMcp.Pg.EventStream

/-!
# The session of a backend

`McpSession` of `pg_mcp::client`: JSON-RPC over HTTP, one exchange at a time. A request is sent,
and sent once more after a new `initialize` if the answer says that the session is gone. The
server is any function of what it was sent before, so the log of what was sent is part of every
result. As long as the session is alive a request is sent once and its answer is returned
(`request_sent_once`), unless the text of an error that is answered as JSON reads like an expired
session, when the request is sent twice, or a frame that is no response has its id on a stream.
-/

set_option autoImplicit false

namespace NoizuMcp.Pg

open Protocol (Json Fields)

open Transport.Sse (Text)

/-! ## Texts -/

/-- `to_ascii_lowercase`. -/
def asciiLower (text : Text) : Text :=
  text.map fun c => if 'A' ≤ c ∧ c ≤ 'Z' then Char.ofNat (c.toNat + 32) else c

/-- `contains`. -/
def contains (text : Text) (part : String) : Bool := text.tails.any (part.toList.isPrefixOf ·)

/-- `is_expired_session`. -/
def isExpiredSession (message : String) : Bool :=
  let lower := asciiLower message.toList
  (contains lower "session" &&
    (contains lower "expired" || contains lower "unknown" || contains lower "not found")) ||
    contains lower "invalid session id"

/-- `is_authz_message`. -/
def isAuthzMessage (message : String) : Bool :=
  let lower := asciiLower message.toList
  contains lower "unauthorized" || contains lower "forbidden" || contains lower "access denied" ||
    contains lower "insufficient scope" || contains lower "invalid_token"

/-! ## Errors of an answer -/

/-- `from_rpc`. -/
def fromRpc (code : Int) (message : String) : McpError :=
  if code = -32602 then ⟨.invalidParams, message⟩
  else if code = -32601 then ⟨.methodNotFound, message⟩
  else if code = -32600 ∨ code = -32700 ∨ code = -32603 then
    ⟨.internal, "MCP protocol failure (" ++ toString code ++ "): " ++ message⟩
  else if isAuthzMessage message then ⟨.forbidden, message⟩
  else ⟨.rpc code, message⟩

/-- `from_http_status`. -/
def fromHttpStatus (status : Nat) : McpError :=
  if status = 401 ∨ status = 403 then
    ⟨.forbidden, "MCP server rejected the request (HTTP " ++ toString status ++ ")"⟩
  else if status = 400 then ⟨.invalidParams, "MCP server rejected the request (HTTP 400)"⟩
  else if status = 405 then ⟨.methodNotFound, "MCP server does not accept POST (HTTP 405)"⟩
  else .transport ("MCP server returned HTTP " ++ toString status)

/-- `Value::as_i64`. -/
def asI64 : Json → Option Int
  | .int n => if inI64 n then some n else none
  | _ => none

/-- `rpc_error`. -/
def rpcError (value : Json) : Option (Int × String) :=
  (value.get "error").map fun error =>
    (((error.get "code").bind asI64).getD 0,
      ((error.get "message").bind Json.asStr).getD "MCP server returned an error")

/-- The error of a response without a result and without an error. -/
def neither (id : Int) : McpError :=
  .transport ("MCP response for request " ++ toString id ++ " carried neither result nor error")

/-- `finish`. -/
def finish (value : Json) (id : Int) : Except McpError Json :=
  match rpcError value with
  | some (code, message) => .error (fromRpc code message)
  | none =>
    match value.get "result" with
    | some result => .ok result
    | none => .error (neither id)

/-! ## Exchanges -/

/-- `McpSession`, without the clock and the connection pool. -/
structure Session where
  sessionId : Option String
  protocolVersion : String
  serverInfo : Json
  capabilities : Json
  nextId : Int
  initializeCount : Nat
  deriving DecidableEq

/-- What a request carries over HTTP, next to the headers that are always the same. -/
structure Sent where
  body : Json
  sessionId : Option String
  protocolVersion : Option String
  bearer : Option String
  deriving DecidableEq

/-- The body of an answer as it is read: chunk by chunk, up to its end or an error of some kind. -/
structure Body where
  chunks : List Text
  ending : Option String

/-- What comes back from the server, or from the attempt to reach it. -/
inductive HttpAnswer where
  | unreachable (kind : String)
  | answered (status : Nat) (sessionId : Option String) (contentType : String) (body : Body)

/-- What surrounds a session: the server, which answers as it likes to what it was sent so far, the
JSON parser, the credential, and what may interrupt the exchange of each number. -/
structure Transport where
  server : List Sent → HttpAnswer
  parse : Text → Option Json
  bearer : Option String
  pending : Nat → Option McpError
  patience : Nat → Patience

/-- `Wire`. -/
inductive Wire where
  | json (value : Json) (sessionId : Option String)
  | sse (body : Body)
  | accepted
  | sessionGone
  | failed (error : McpError)

/-- The largest JSON body that is read. -/
def maxJsonBody : Nat := 64 * 1024 * 1024

/-- A body that is no stream. -/
def readBody (parse : Text → Option Json) (sessionId : Option String) (body : Body) : Wire :=
  let text := body.chunks.flatten
  match body.ending with
  | some kind =>
    if text.length < maxJsonBody then
      .failed (.transport ("could not read the MCP response body: " ++ kind))
    else parsed (text.take maxJsonBody)
  | none => parsed (text.take maxJsonBody)
where
  parsed (text : Text) : Wire :=
    match parse text with
    | some value => .json value sessionId
    | none => .failed (.transport "MCP server returned a malformed JSON body")

/-- Whether an answer is a stream. -/
def isStream (contentType : String) : Bool :=
  contains (asciiLower contentType.toList) "text/event-stream"

/-- What `dispatch` makes of an answer; a status from 400 on is an error of `ureq`, and
`classify_status` takes it. -/
def classify (parse : Text → Option Json) : HttpAnswer → Wire
  | .unreachable kind => .failed (.transport ("could not reach the MCP server: " ++ kind))
  | .answered status sessionId contentType body =>
    if 400 ≤ status then
      if status = 404 then .sessionGone else .failed (fromHttpStatus status)
    else if status = 202 then .accepted
    else if isStream contentType then .sse body
    else readBody parse sessionId body

/-- `dispatch`, and the log after it. -/
def dispatch (t : Transport) (log : List Sent) (sent : Sent) : List Sent × Wire :=
  match t.pending log.length with
  | some error => (log, .failed error)
  | none => (log ++ [sent], classify t.parse (t.server (log ++ [sent])))

/-- `build`. -/
def build (t : Transport) (session : Session) (body : Json) (sessionId : Option String)
    (sendProtocolVersion : Bool) : Sent where
  body := body
  sessionId := sessionId
  protocolVersion := if sendProtocolVersion then some session.protocolVersion else none
  bearer := t.bearer

/-- `read_stream` of the exchange with this number. -/
def readStream (t : Transport) (number : Nat) (body : Body) (id : Int) : Except McpError Json :=
  (readUntilId t.parse id (t.patience number) body.ending body.chunks).2

/-- `notify`. -/
def notify (t : Transport) (session : Session) (log : List Sent) (body : Json) :
    List Sent × Except McpError Unit :=
  match dispatch t log (build t session body session.sessionId true) with
  | (log, .failed error) => (log, .error error)
  | (log, _) => (log, .ok ())

/-- `exchange`, as `initialize` uses it. -/
def exchange (t : Transport) (session : Session) (log : List Sent) (body : Json) (id : Int)
    (sessionId : Option String) (sendProtocolVersion : Bool) :
    List Sent × Except McpError (Json × Option String) :=
  match dispatch t log (build t session body sessionId sendProtocolVersion) with
  | (log', .json value sid) => (log', (finish value id).map fun result => (result, sid))
  | (log', .sse body) =>
    (log', (readStream t log.length body id).bind fun value =>
      (finish value id).map fun result => (result, none))
  | (log', .accepted) => (log', .error (.transport "MCP server did not answer initialize"))
  | (log', .sessionGone) =>
    (log', .error
      (.transport "MCP server rejected the initialize request as an unknown session"))
  | (log', .failed error) => (log', .error error)

/-- `exchange_checked`; `none` is a session that is gone. -/
def exchangeChecked (t : Transport) (session : Session) (log : List Sent) (body : Json) (id : Int) :
    List Sent × Except McpError (Option Json) :=
  match dispatch t log (build t session body session.sessionId true) with
  | (log', .json value _) =>
    match finish value id with
    | .ok result => (log', .ok (some result))
    | .error error =>
      if isExpiredSession error.message then (log', .ok none) else (log', .error error)
  | (log', .sse body) =>
    (log', (readStream t log.length body id).bind fun value => (finish value id).map some)
  | (log', .accepted) =>
    (log', .error (.transport "MCP server accepted the request without answering it"))
  | (log', .sessionGone) => (log', .ok none)
  | (log', .failed error) => (log', .error error)

/-! ## Requests -/

/-- The body of a JSON-RPC request. -/
def requestBody (id : Int) (method : String) (params : Json) : Json :=
  .obj [("jsonrpc", .str "2.0"), ("id", .int id), ("method", .str method), ("params", params)]

/-- `CLIENT_PROTOCOL_VERSION`. -/
def clientProtocolVersion : String := "2025-11-25"

/-- The parameters of `initialize`; `version` is that of the extension. -/
def initializeParams (version : String) : Json :=
  .obj [("protocolVersion", .str clientProtocolVersion), ("capabilities", .obj []),
    ("clientInfo", .obj [("name", .str "pg_mcp"), ("version", .str version)])]

def initializedNote : Json :=
  .obj [("jsonrpc", .str "2.0"), ("method", .str "notifications/initialized")]

/-- `initialize`. -/
def initializeSession (t : Transport) (version : String) (session : Session) (log : List Sent) :
    Session × List Sent × Except McpError Unit :=
  let id := session.nextId
  let session := { session with nextId := id + 1 }
  match exchange t session log (requestBody id "initialize" (initializeParams version)) id none
      false with
  | (log, .error error) => (session, log, .error error)
  | (log, .ok (result, sessionId)) =>
    let session :=
      { session with
        sessionId := sessionId
        protocolVersion :=
          ((result.get "protocolVersion").bind Json.asStr).getD clientProtocolVersion
        serverInfo := (result.get "serverInfo").getD .null
        capabilities := (result.get "capabilities").getD .null
        initializeCount := session.initializeCount + 1 }
    (session, notify t session log initializedNote)

/-- `try_request`. -/
def tryRequest (t : Transport) (method : String) (params : Json) (session : Session)
    (log : List Sent) : Session × List Sent × Except McpError (Option Json) :=
  let id := session.nextId
  let session := { session with nextId := id + 1 }
  (session, exchangeChecked t session log (requestBody id method params) id)

/-- `request`. -/
def request (t : Transport) (version method : String) (params : Json) (session : Session)
    (log : List Sent) : Session × List Sent × Except McpError Json :=
  match tryRequest t method params session log with
  | (session, log, .ok (some value)) => (session, log, .ok value)
  | (session, log, .error error) => (session, log, .error error)
  | (session, log, .ok none) =>
    match initializeSession t version { session with sessionId := none } log with
    | (session, log, .error error) => (session, log, .error error)
    | (session, log, .ok ()) =>
      match tryRequest t method params session log with
      | (session, log, .ok (some value)) => (session, log, .ok value)
      | (session, log, .error error) => (session, log, .error error)
      | (session, log, .ok none) =>
        (session, log, .error (.transport
          "MCP session was rejected twice; giving up after one re-initialize"))

/-! ## The response on a stream -/

/-- The frames that a stream hands over before its reading stops, and the error that it stops
with: by the deadline, by an interrupt, or at the end of the stream. -/
def arrivedFrom (parse : Text → Option Json) (patience : Patience) (ending : Option String) :
    Nat → List Text → List Text → List Json × McpError
  | n, _, [] => ([], if patience.timedOut n then patience.tooLate else sourceEnd ending)
  | n, data, line :: rest =>
    if patience.timedOut n then ([], patience.tooLate)
    else if trimEnd line = [] then
      match patience.interrupt n with
      | some error => ([], error)
      | none =>
        let later := arrivedFrom parse patience ending (n + 1) [] rest
        ((eventValue parse data).toList ++ later.1, later.2)
    else if (trimEnd line).head? = some ':' then
      arrivedFrom parse patience ending (n + 1) data rest
    else if (splitField (trimEnd line)).1 = "data".toList then
      arrivedFrom parse patience ending (n + 1) (data ++ [(splitField (trimEnd line)).2]) rest
    else arrivedFrom parse patience ending (n + 1) data rest

/-- What arrives in the exchange with this number. -/
def arrived (t : Transport) (number : Nat) (body : Body) : List Json × McpError :=
  arrivedFrom t.parse (t.patience number) body.ending 0 [] (linesFrom [] body.chunks)

/-- The frame has the id, as the reader takes it. -/
def hasId (id : Int) (frame : Json) : Bool := decide ((frame.get "id").bind jsonId = some id)

/-- A response has a result or an error. -/
def settled (frame : Json) : Bool := (frame.get "result").isSome || (frame.get "error").isSome

/-- The frame is a response to the request with this id. -/
def isResponse (id : Int) (frame : Json) : Bool := hasId id frame && settled frame

/-- The first frame of a kind, or the error that the reading stops with. -/
def firstOf (kind : Json → Bool) (arrived : List Json × McpError) : Except McpError Json :=
  match arrived.1.find? kind with
  | some frame => .ok frame
  | none => .error arrived.2

section Reading

variable {parse : Text → Option Json} {want : Int} {patience : Patience} {ending : Option String}

theorem firstOf_cons_of_neg {kind : Json → Bool} {first : Json} (h : ¬kind first = true)
    (frames : List Json) (error : McpError) :
    firstOf kind (first :: frames, error) = firstOf kind (frames, error) := by
  rw [firstOf, List.find?_cons_of_neg h, firstOf]

/-- The reader returns the first frame with the id. -/
theorem readFrom_firstOf : ∀ (lines data : List Text) (n : Nat),
    (readFrom parse want patience ending n data lines).2 =
      firstOf (hasId want) (arrivedFrom parse patience ending n data lines)
  | [], data, n => by
    rw [readFrom, arrivedFrom]
    split <;> rfl
  | line :: rest, data, n => by
    rw [readFrom, arrivedFrom]
    by_cases hlate : patience.timedOut n = true
    · rw [if_pos hlate, if_pos hlate]
      rfl
    rw [if_neg hlate, if_neg hlate]
    by_cases hblank : trimEnd line = []
    · rw [if_pos hblank, if_pos hblank]
      cases patience.interrupt n with
      | some => rfl
      | none =>
        cases eventValue parse data with
        | none => exact readFrom_firstOf rest [] (n + 1)
        | some first =>
          dsimp only
          by_cases hid : (first.get "id").bind jsonId = some want
          · have hkind : hasId want first = true := decide_eq_true hid
            rw [if_pos hid, firstOf, Option.toList_some, List.singleton_append,
              List.find?_cons_of_pos hkind]
          · rw [if_neg hid, Option.toList_some, List.singleton_append,
              firstOf_cons_of_neg (fun h => hid (of_decide_eq_true h))]
            exact readFrom_firstOf rest [] (n + 1)
    -- The other lines change the data of the event, or nothing.
    rw [if_neg hblank, if_neg hblank]
    by_cases hcomment : (trimEnd line).head? = some ':'
    · rw [if_pos hcomment, if_pos hcomment]
      exact readFrom_firstOf rest data (n + 1)
    rw [if_neg hcomment, if_neg hcomment]
    by_cases hdata : (splitField (trimEnd line)).1 = "data".toList
    · rw [if_pos hdata, if_pos hdata]
      exact readFrom_firstOf rest _ (n + 1)
    · rw [if_neg hdata, if_neg hdata]
      exact readFrom_firstOf rest data (n + 1)

/-- What a reading can stop with. -/
theorem arrivedFrom_stops : ∀ (lines data : List Text) (n : Nat),
    (arrivedFrom parse patience ending n data lines).2 = patience.tooLate ∨
      (∃ k, patience.interrupt k = some (arrivedFrom parse patience ending n data lines).2) ∨
      (arrivedFrom parse patience ending n data lines).2 = sourceEnd ending
  | [], data, n => by
    rw [arrivedFrom]
    split
    · exact .inl rfl
    · exact .inr (.inr rfl)
  | line :: rest, data, n => by
    rw [arrivedFrom]
    split
    · exact .inl rfl
    split
    · split
      · exact .inr (.inl ⟨n, by assumption⟩)
      · exact arrivedFrom_stops rest [] (n + 1)
    split
    · exact arrivedFrom_stops rest data (n + 1)
    split
    · exact arrivedFrom_stops rest _ (n + 1)
    · exact arrivedFrom_stops rest data (n + 1)

end Reading

/-! ## What an answer comes to -/

/-- What a request is to come to, by the answer to it: the result of its response, which on a
stream is the first frame with the id and a result or an error, or the error that the answer is
mapped to. -/
def outcome (t : Transport) (number : Nat) (id : Int) (answer : HttpAnswer) :
    Except McpError Json :=
  match classify t.parse answer with
  | .json value _ => finish value id
  | .sse body => (firstOf (isResponse id) (arrived t number body)).bind fun frame => finish frame id
  | .accepted => .error (.transport "MCP server accepted the request without answering it")
  | .sessionGone => .error (fromHttpStatus 404)
  | .failed error => .error error

/-- Nothing in an answer is taken for something else: an error that is answered as JSON does not
read like an expired session, and the first frame with the id of the request that arrives on a
stream is a response. -/
structure Unmistaken (t : Transport) (number : Nat) (id : Int) (answer : HttpAnswer) : Prop where
  json : ∀ value sessionId error, classify t.parse answer = .json value sessionId →
    finish value id = .error error → isExpiredSession error.message = false
  stream : ∀ body frame, classify t.parse answer = .sse body →
    (arrived t number body).1.find? (hasId id) = some frame → settled frame = true

section

variable {t : Transport} {number : Nat} {id : Int} {answer : HttpAnswer}

theorem Unmistaken.json_iff {value : Json} {sessionId : Option String}
    (hclass : classify t.parse answer = .json value sessionId) :
    Unmistaken t number id answer ↔
      ∀ error, finish value id = .error error → isExpiredSession error.message = false := by
  refine ⟨fun h error => h.json value sessionId error hclass, fun h => ⟨?_, ?_⟩⟩
  · intro value' sessionId' error hjson
    cases hclass.symm.trans hjson
    exact h error
  · intro body frame hsse
    cases hclass.symm.trans hsse

theorem Unmistaken.stream_iff {body : Body} (hclass : classify t.parse answer = .sse body) :
    Unmistaken t number id answer ↔
      ∀ frame, (arrived t number body).1.find? (hasId id) = some frame → settled frame = true := by
  refine ⟨fun h frame => h.stream body frame hclass, fun h => ⟨?_, ?_⟩⟩
  · intro value sessionId error hjson
    cases hclass.symm.trans hjson
  · intro body' frame hsse
    cases hclass.symm.trans hsse
    exact h frame

end

theorem readBody_cases (parse : Text → Option Json) (sessionId : Option String) (body : Body) :
    (∃ value, readBody parse sessionId body = .json value sessionId) ∨
      ∃ error, readBody parse sessionId body = .failed error := by
  have hparsed : ∀ text, (∃ value, readBody.parsed parse sessionId text = .json value sessionId) ∨
      ∃ error, readBody.parsed parse sessionId text = .failed error := by
    intro text
    unfold readBody.parsed
    cases parse text with
    | some value => exact .inl ⟨value, rfl⟩
    | none => exact .inr ⟨_, rfl⟩
  unfold readBody
  cases body.ending with
  | none => exact hparsed _
  | some =>
    dsimp only
    split
    · exact .inr ⟨_, rfl⟩
    · exact hparsed _

section Outcomes

variable {t : Transport} {number : Nat} {id : Int} {answer : HttpAnswer} {frame : Json}

theorem fromRpc_kind (code : Int) (message : String) :
    (fromRpc code message).kind ≠ .transport := by
  unfold fromRpc
  split_ifs <;> exact nofun

/-- A response does not come to the error of a frame that is none. -/
theorem finish_ne_neither (h : settled frame = true) : finish frame id ≠ .error (neither id) := by
  unfold finish
  cases hrpc : rpcError frame with
  | some found => exact fun heq => fromRpc_kind _ _ (congrArg McpError.kind (Except.error.inj heq))
  | none =>
    have herror : frame.get "error" = none := Option.map_eq_none_iff.mp hrpc
    rw [settled, herror, Option.isSome_none, Bool.or_false] at h
    obtain ⟨result, hresult⟩ := Option.isSome_iff_exists.mp h
    rw [hresult]
    exact nofun

theorem finish_eq_neither (h : settled frame = false) : finish frame id = .error (neither id) := by
  obtain ⟨hresult, herror⟩ := Bool.or_eq_false_iff.mp h
  rw [Option.isSome_eq_false_iff, Option.isNone_iff_eq_none] at hresult herror
  rw [finish, rpcError, herror]
  dsimp only [Option.map_none]
  rw [hresult]

/-- A reading does not stop with the error of a frame that is no response. -/
theorem stop_ne_neither (body : Body)
    (hinterrupt : ∀ n, (t.patience number).interrupt n ≠ some (neither id)) :
    (arrived t number body).2 ≠ neither id := by
  intro heq
  have hstart := congrArg (fun error => error.message.toList.take 7) heq
  rcases arrivedFrom_stops (linesFrom [] body.chunks) [] 0 with hlate | ⟨n, hn⟩ | hend
  · rw [arrived, hlate] at hstart
    simp [Patience.tooLate, neither, McpError.transport] at hstart
  · exact hinterrupt n (hn.trans (congrArg some heq))
  · rw [arrived, hend] at hstart
    cases hending : body.ending <;> rw [hending] at hstart <;>
      simp [sourceEnd, neither, McpError.transport] at hstart

/-- Reading by the id finds the response just if the first frame with the id is one. -/
theorem read_iff (body : Body)
    (hinterrupt : ∀ n, (t.patience number).interrupt n ≠ some (neither id)) :
    ((readStream t number body id).bind fun frame => finish frame id) =
        ((firstOf (isResponse id) (arrived t number body)).bind fun frame => finish frame id) ↔
      ∀ frame, (arrived t number body).1.find? (hasId id) = some frame → settled frame = true := by
  have hread : readStream t number body id = firstOf (hasId id) (arrived t number body) :=
    readFrom_firstOf _ [] 0
  rw [hread]
  cases hfirst : (arrived t number body).1.find? (hasId id) with
  | none =>
    have hnone : (arrived t number body).1.find? (isResponse id) = none := by
      rw [List.find?_eq_none] at hfirst ⊢
      exact fun frame hframe hboth => hfirst frame hframe (Bool.and_eq_true_iff.mp hboth).1
    simp [firstOf, hfirst, hnone]
  | some frame =>
    obtain ⟨hid, before, after, hframes, hbefore⟩ := List.find?_eq_some_iff_append.mp hfirst
    cases hsettled : settled frame with
    | true =>
      have hresponse : (arrived t number body).1.find? (isResponse id) = some frame := by
        refine List.find?_eq_some_iff_append.mpr ⟨?_, before, after, hframes, fun other hother => ?_⟩
        · rw [isResponse, hid, hsettled]
          rfl
        · rw [isResponse, Bool.eq_false_of_not_eq_true' (hbefore other hother)]
          rfl
      simp [firstOf, hfirst, hresponse, hsettled]
    | false =>
      refine iff_of_false ?_ fun h => Bool.false_ne_true (hsettled.symm.trans (h frame rfl))
      simp only [firstOf, hfirst, Except.bind]
      rw [finish_eq_neither hsettled]
      cases hresponse : (arrived t number body).1.find? (isResponse id) with
      | none => exact fun heq => stop_ne_neither body hinterrupt (Except.error.inj heq).symm
      | some response =>
        have hkind : isResponse id response = true := List.find?_some hresponse
        exact fun heq => finish_ne_neither (Bool.and_eq_true_iff.mp hkind).2 heq.symm

end Outcomes

/-! ## One request -/

/-- The session after one more request. -/
def Session.next (session : Session) : Session := { session with nextId := session.nextId + 1 }

/-- What a request sends. -/
def requestSent (t : Transport) (method : String) (params : Json) (session : Session) : Sent :=
  build t session.next (requestBody session.nextId method params) session.sessionId true

section Sending

variable {t : Transport} {version method : String} {params : Json} {session : Session}
  {log log' : List Sent}

/-- A request whose first attempt is answered ends with it. -/
theorem request_of_try {result : Except McpError Json}
    (h : tryRequest t method params session log = (session.next, log', result.map some)) :
    request t version method params session log = (session.next, log', result) := by
  unfold request
  rw [h]
  cases result <;> rfl

/-- `initialize` takes one id. -/
theorem initializeSession_nextId :
    (initializeSession t version session log).1.nextId = session.nextId + 1 := by
  unfold initializeSession
  dsimp only
  split <;> rfl

/-- A request that initializes again takes further ids. -/
theorem request_again
    (h : tryRequest t method params session log = (session.next, log', .ok none)) :
    (request t version method params session log).1 ≠ session.next := by
  intro heq
  have hid := congrArg Session.nextId heq
  have hinit : (initializeSession t version { session.next with sessionId := none } log').1.nextId =
      session.next.nextId + 1 := initializeSession_nextId
  unfold request at hid
  rw [h] at hid
  dsimp only at hid
  split at hid
  case h_1 hran =>
    rw [hran] at hinit
    dsimp only at hid hinit
    omega
  case h_2 hran =>
    rw [hran] at hinit
    dsimp only at hinit
    -- the second attempt takes an id of its own
    split at hid
    all_goals
      rename_i hagain
      have hagain := congrArg (fun out => out.1.nextId) hagain
      dsimp only [tryRequest] at hagain hid
      omega

theorem classify_ne_sessionGone {parse : Text → Option Json} {answer : HttpAnswer}
    (h : ∀ sessionId contentType body, answer ≠ .answered 404 sessionId contentType body) :
    classify parse answer ≠ .sessionGone := by
  intro hclass
  cases answer with
  | unreachable => cases hclass
  | answered status sessionId contentType body =>
    unfold classify at hclass
    dsimp only at hclass
    split_ifs at hclass with herror hgone
    · exact h sessionId contentType body (hgone ▸ rfl)
    · rcases readBody_cases parse sessionId body with ⟨_, hread⟩ | ⟨_, hread⟩ <;>
        rw [hread] at hclass <;> cases hclass

end Sending

/-- As long as the session is alive, a request is sent once and comes to the outcome of its answer
if, and only if, the statement is not cancelled before and nothing in the answer is taken for
something else. -/
theorem request_sent_once (t : Transport) (version method : String) (params : Json)
    (session : Session) (log : List Sent)
    (halive : ∀ log sessionId contentType body,
      t.server log ≠ .answered 404 sessionId contentType body)
    (hinterrupt : ∀ number n, (t.patience number).interrupt n ≠ some (neither session.nextId)) :
    request t version method params session log =
        (session.next, log ++ [requestSent t method params session],
          outcome t log.length session.nextId
            (t.server (log ++ [requestSent t method params session]))) ↔
      t.pending log.length = none ∧ Unmistaken t log.length session.nextId
        (t.server (log ++ [requestSent t method params session])) := by
  have htry : tryRequest t method params session log = (session.next,
      exchangeChecked t session.next log (requestBody session.nextId method params)
        session.nextId) := rfl
  unfold exchangeChecked dispatch at htry
  cases hfree : t.pending log.length with rw [hfree] at htry
  | some =>
    refine iff_of_false (fun heq => ?_) fun h => nomatch h.1
    unfold request at heq
    rw [htry] at heq
    have hlog := congrArg (fun out => out.2.1.length) heq
    simp at hlog
  | none =>
    have hsent : build t session.next (requestBody session.nextId method params)
        session.next.sessionId true = requestSent t method params session := rfl
    rw [hsent] at htry
    dsimp only at htry
    unfold outcome
    cases hclass : classify t.parse (t.server (log ++ [requestSent t method params session])) with
      rw [hclass] at htry
    | json value sessionId =>
      rw [Unmistaken.json_iff hclass]
      dsimp only at htry ⊢
      cases hfinish : finish value session.nextId with rw [hfinish] at htry
      | ok result => exact iff_of_true (request_of_try htry) ⟨rfl, fun _ herror => nomatch herror⟩
      | error error =>
        dsimp only at htry
        cases hexpired : isExpiredSession error.message with rw [hexpired] at htry
        | true =>
          refine iff_of_false (fun heq => ?_) fun h => ?_
          · exact request_again htry (congrArg Prod.fst heq)
          · exact Bool.false_ne_true ((h.2 error rfl).symm.trans hexpired)
        | false =>
          refine iff_of_true (request_of_try htry) ⟨rfl, fun error' herror => ?_⟩
          cases herror
          exact hexpired
    | sse body =>
      have hrequest : request t version method params session log =
          (session.next, log ++ [requestSent t method params session],
            (readStream t log.length body session.nextId).bind fun frame =>
              finish frame session.nextId) := by
        refine request_of_try (htry.trans ?_)
        dsimp only
        cases readStream t log.length body session.nextId <;> rfl
      rw [Unmistaken.stream_iff hclass, hrequest, Prod.mk.injEq, Prod.mk.injEq,
        read_iff body (hinterrupt log.length)]
      exact ⟨fun h => ⟨rfl, h.2.2⟩, fun h => ⟨rfl, rfl, h.2⟩⟩
    | sessionGone => exact absurd hclass (classify_ne_sessionGone (halive _))
    | accepted | failed =>
      refine iff_of_true (request_of_try htry) ⟨rfl, ⟨?_, ?_⟩⟩
      · intro value sessionId error hjson
        cases hclass.symm.trans hjson
      · intro body frame hsse
        cases hclass.symm.trans hsse

/-! ## Servers -/

/-- A session that has been opened. -/
def openSession : Session where
  sessionId := some "s1"
  protocolVersion := clientProtocolVersion
  serverInfo := .null
  capabilities := .null
  nextId := 2
  initializeCount := 1

/-- An answer in JSON whose text is the place of its value in a list. -/
def placed (place : Nat) : HttpAnswer :=
  .answered 200 none "application/json" ⟨[List.replicate place '1'], none⟩

/-- A server that gives one answer to `tools/call` and initializes every session. -/
def callServer (place : Nat) (log : List Sent) : HttpAnswer :=
  match log.getLast?.bind fun sent => sent.body.get "method" with
  | some (.str "tools/call") => placed place
  | some (.str "initialize") => placed 0
  | _ => .answered 202 none "" ⟨[], none⟩

theorem callServer_cases (place : Nat) (log : List Sent) :
    callServer place log = placed place ∨ callServer place log = placed 0 ∨
      callServer place log = .answered 202 none "" ⟨[], none⟩ := by
  unfold callServer
  split
  · exact .inl rfl
  · exact .inr (.inl rfl)
  · exact .inr (.inr rfl)

theorem callServer_alive (place : Nat) (log : List Sent) (sessionId : Option String)
    (contentType : String) (body : Body) :
    callServer place log ≠ .answered 404 sessionId contentType body := by
  rcases callServer_cases place log with h | h | h <;> rw [h] <;> simp [placed]

def errorOf (code : Int) (message : String) : Json :=
  .obj [("jsonrpc", .str "2.0"), ("id", .int 2),
    ("error", .obj [("code", .int code), ("message", .str message)])]

/-- The answers: to `initialize`, an error about a record, and one about a session that a tool
looks up. -/
def answers : List Json :=
  [.obj [("result", .obj [])], errorOf (-32602) "no such order",
    errorOf (-32602) "chat session 42 not found"]

def plainTransport (place : Nat) : Transport where
  server := callServer place
  parse text := answers[text.length]?
  bearer := none
  pending _ := none
  patience _ := {}

/-- The methods of what was sent. -/
def methods (log : List Sent) : List (Option Json) := log.map fun sent => sent.body.get "method"

/-- An error that speaks of no session is returned after the one call. -/
theorem order_error_returned :
    request (plainTransport 1) "1.0" "tools/call" .null openSession [] =
        (openSession.next, [] ++ [requestSent (plainTransport 1) "tools/call" .null openSession],
          outcome (plainTransport 1) 0 2 (placed 1)) ∧
      outcome (plainTransport 1) 0 2 (placed 1) = .error ⟨.invalidParams, "no such order"⟩ := by
  have hjson : classify (plainTransport 1).parse (placed 1) =
      .json (errorOf (-32602) "no such order") none := rfl
  refine ⟨(request_sent_once (plainTransport 1) "1.0" "tools/call" .null openSession []
    (callServer_alive 1) fun _ _ => nofun).mpr ⟨rfl, ?_, ?_⟩, rfl⟩
  · intro value sessionId error hvalue herror
    cases hjson.symm.trans hvalue
    cases herror
    decide +kernel
  · exact fun body frame hstream => nomatch hjson.symm.trans hstream

/-- A tool that does not find a chat session is called twice. -/
theorem request_sent_twice :
    (∀ log sessionId contentType body,
      (plainTransport 2).server log ≠ .answered 404 sessionId contentType body) ∧
    methods (request (plainTransport 2) "1.0" "tools/call" .null openSession []).2.1 =
      [some (.str "tools/call"), some (.str "initialize"), some (.str "notifications/initialized"),
        some (.str "tools/call")] :=
  ⟨callServer_alive 2, by decide +kernel⟩

end NoizuMcp.Pg
