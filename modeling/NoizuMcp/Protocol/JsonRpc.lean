import NoizuMcp.Protocol.Json

/-!
# JSON-RPC framing

`Noizu.MCP.JsonRpc` and `Noizu.MCP.Error`: the four kinds of message, how a frame
is classified and how a message is rendered. A frame that is no message is answered
by the error response that classification prepares; its id is the frame's id if
that is usable and `null` otherwise.

The JSON library is a parameter: a codec that gives back every value it encoded. So
are the terms of the host language, of which only some are what a JSON value is
decoded to. A message that is written and read again is the message it was just if
its terms are such terms and it is no error response without an id, which is not
read as a message at all (`Host.round_trip_iff`).
-/

set_option autoImplicit false

namespace NoizuMcp.Protocol

/-- The fields of a JSON object. -/
abbrev Fields := List (String × Json)

/-! ## Errors -/

/-- The `reason` atom of an error. -/
inductive Reason where
  | parseError
  | invalidRequest
  | methodNotFound
  | invalidParams
  | internal
  | resourceNotFound
  | forbidden
  | capabilityNotSupported
  | custom
  deriving DecidableEq, Repr

/-- A protocol error. Code, message and data of an inbound error may be anything. -/
structure RpcError where
  code : Json
  message : Json
  data : Json := .null
  reason : Reason
  deriving DecidableEq

namespace RpcError

/-- The error of a text that is not JSON. -/
def parseError : RpcError := ⟨.int (-32700), .str "Parse error", .null, .parseError⟩

/-- The error of JSON that is no message. -/
def invalidRequest (message : String) : RpcError :=
  ⟨.int (-32600), .str message, .null, .invalidRequest⟩

/-- The error of a method that nobody serves. -/
def methodNotFound (method : String) : RpcError :=
  ⟨.int (-32601), .str ("Method not found: " ++ method), .null, .methodNotFound⟩

/-- The error of parameters that do not fit. -/
def invalidParams (message : String) : RpcError :=
  ⟨.int (-32602), .str message, .null, .invalidParams⟩

/-- The error of a handler that failed. -/
def internal (message : String) : RpcError := ⟨.int (-32603), .str message, .null, .internal⟩

/-- `reason_for_code/1`: a code that is not one of the integers is custom. -/
def reasonForCode : Json → Reason
  | .int (-32700) => .parseError
  | .int (-32600) => .invalidRequest
  | .int (-32601) => .methodNotFound
  | .int (-32602) => .invalidParams
  | .int (-32603) => .internal
  | .int (-32002) => .resourceNotFound
  | .int (-32000) => .forbidden
  | _ => .custom

/-- `from_map/1`: a missing message is the empty text. -/
def fromMap (fields : Fields) : RpcError where
  code := (fields.lookup "code").getD .null
  message := Json.orElse (fields.lookup "message") (.str "")
  data := (fields.lookup "data").getD .null
  reason := reasonForCode ((fields.lookup "code").getD .null)

/-- `to_map/1`: data that is null is left out. -/
def toMap (error : RpcError) : Fields :=
  [("code", error.code), ("message", error.message)] ++
    if error.data = .null then [] else [("data", error.data)]

end RpcError

/-! ## Messages -/

/-- The id of a request. -/
inductive Id where
  | int (n : Int)
  | str (s : String)
  deriving DecidableEq, Repr

namespace Id

/-- The id on the wire. -/
def toJson : Id → Json
  | .int n => .int n
  | .str s => .str s

/-- `valid_id/1`. -/
def ofJson : Json → Option Id
  | .int n => some (.int n)
  | .str s => some (.str s)
  | _ => none

end Id

/-- An error response. Only one that answers an unreadable frame has no id. -/
structure ErrorResponse where
  id : Option Id
  error : RpcError
  deriving DecidableEq

/-- The messages of JSON-RPC as MCP has them. -/
inductive Message where
  | request (id : Id) (method : String) (params : Option Fields)
  | notification (method : String) (params : Option Fields)
  | response (id : Id) (result : Fields)
  | errorResponse (response : ErrorResponse)
  deriving DecidableEq

/-! ## Classification -/

/-- `validate_params/1`; `none` is `:invalid`. -/
def validateParams : Option Json → Option (Option Fields)
  | none => some none
  | some .null => some none
  | some (.obj params) => some (some params)
  | some _ => none

/-- The id of a frame, if it is usable. -/
def validId (fields : Fields) : Option Id := (fields.lookup "id").bind Id.ofJson

/-- A frame with a method is a request or a notification. -/
def classifyCall (fields : Fields) (method : String) : Except ErrorResponse Message :=
  match validateParams (fields.lookup "params"), fields.lookup "id" with
  | none, _ => .error ⟨validId fields, .invalidRequest "params must be an object"⟩
  | some params, some id =>
    match Id.ofJson id with
    | some id => .ok (.request id method params)
    | none => .error ⟨none, .invalidRequest "id must be a string or integer"⟩
  | some params, none => .ok (.notification method params)

/-- A frame without a method is a response, if its id is usable. -/
def classifyReply (fields : Fields) : Except ErrorResponse Message :=
  match validId fields, fields.lookup "error", fields.lookup "result" with
  | some id, some (.obj error), _ => .ok (.errorResponse ⟨some id, .fromMap error⟩)
  | some id, _, some (.obj result) => .ok (.response id result)
  | id, _, _ =>
    .error ⟨id, .invalidRequest "Not a valid JSON-RPC request, notification, or response"⟩

/-- A text under `method` makes it a call. -/
def classifyMessage (fields : Fields) : Except ErrorResponse Message :=
  match fields.lookup "method" with
  | some (.str method) => classifyCall fields method
  | _ => classifyReply fields

/-- `classify/1`: an object of version 2.0; batches are refused. -/
def classify : Json → Except ErrorResponse Message
  | .arr _ => .error ⟨none, .invalidRequest "JSON-RPC batching is not supported by MCP"⟩
  | .obj fields =>
    if fields.lookup "jsonrpc" = some (.str "2.0") then classifyMessage fields
    else .error ⟨none, .invalidRequest "Expected a JSON-RPC 2.0 object"⟩
  | _ => .error ⟨none, .invalidRequest "Expected a JSON-RPC 2.0 object"⟩

/-! ## Rendering -/

/-- `put_unless_nil/3` for `params`. -/
def paramsField : Option Fields → Fields
  | none => []
  | some params => [("params", .obj params)]

/-- `to_map/1` of a message. -/
def toMap : Message → Json
  | .request id method params =>
    .obj ([("jsonrpc", .str "2.0"), ("id", id.toJson), ("method", .str method)] ++
      paramsField params)
  | .notification method params =>
    .obj ([("jsonrpc", .str "2.0"), ("method", .str method)] ++ paramsField params)
  | .response id result =>
    .obj [("jsonrpc", .str "2.0"), ("id", id.toJson), ("result", .obj result)]
  | .errorResponse response =>
    .obj [("jsonrpc", .str "2.0"), ("id", (response.id.map Id.toJson).getD .null),
      ("error", .obj response.error.toMap)]

/-! ## Frames -/

/-- The JSON library: an encoding of values that it can read back. -/
structure Jason where
  Binary : Type
  encode : Json → Binary
  decode : Binary → Option Json
  decode_encode : ∀ value, decode (encode value) = some value

/-- A codec that keeps values as they are. -/
def Jason.plain : Jason where
  Binary := Json
  encode := id
  decode := some
  decode_encode := fun _ => rfl

/-- `JsonRpc.decode/1`. -/
def Jason.read (J : Jason) (binary : J.Binary) : Except ErrorResponse Message :=
  match J.decode binary with
  | some value => classify value
  | none => .error ⟨none, .parseError⟩

/-! ## Messages of the host language -/

/-- The terms that params, results and error data are made of, and their JSON: the value that is
read back from what the library writes for a term, in which atoms and atom keys are strings, and the
term that a value is decoded to. -/
structure Host (Term : Type) where
  toJson : Term → Json
  ofJson : Json → Term
  toJson_ofJson : ∀ value, toJson (ofJson value) = value

/-- A message as the library builds it: the text of an error is a text, its code an integer. -/
inductive HostMessage (Term : Type) where
  | request (id : Id) (method : String) (params : Term)
  | notification (method : String) (params : Term)
  | response (id : Id) (result : Term)
  | errorResponse (id : Option Id) (code : Int) (message : String) (data : Term) (reason : Reason)
  deriving DecidableEq

namespace Host

variable {Term : Type} [DecidableEq Term] (host : Host Term)

/-- `nil`. -/
def null : Term := host.ofJson .null

/-- `put_unless_nil/3`. -/
def unlessNil (key : String) (value : Term) : Fields :=
  if value = host.null then [] else [(key, host.toJson value)]

/-- `to_map/1`, as it is read back; an absent result is an empty one. -/
def toMap : HostMessage Term → Json
  | .request id method params =>
    .obj ([("jsonrpc", .str "2.0"), ("id", id.toJson), ("method", .str method)] ++
      host.unlessNil "params" params)
  | .notification method params =>
    .obj ([("jsonrpc", .str "2.0"), ("method", .str method)] ++ host.unlessNil "params" params)
  | .response id result =>
    .obj [("jsonrpc", .str "2.0"), ("id", id.toJson),
      ("result", Json.orElse (some (host.toJson result)) (.obj []))]
  | .errorResponse id code message data _ =>
    .obj [("jsonrpc", .str "2.0"), ("id", (id.map Id.toJson).getD .null),
      ("error", .obj ([("code", .int code), ("message", .str message)] ++
        host.unlessNil "data" data))]

/-- `JsonRpc.encode!/1`. -/
def write (J : Jason) (message : HostMessage Term) : J.Binary := J.encode (host.toMap message)

/-- The fields that were read are those of the message, its maps with string keys; the reason of an
error is that of its code. -/
def Reads (host : Host Term) : Message → HostMessage Term → Prop
  | .request id method params, .request id' method' params' =>
    id = id' ∧ method = method' ∧ host.ofJson (params.elim .null .obj) = params'
  | .notification method params, .notification method' params' =>
    method = method' ∧ host.ofJson (params.elim .null .obj) = params'
  | .response id result, .response id' result' => id = id' ∧ host.ofJson (.obj result) = result'
  | .errorResponse ⟨id, error⟩, .errorResponse id' code message data _ =>
    id = id' ∧ error.code = .int code ∧ error.message = .str message ∧
      host.ofJson error.data = data ∧ error.reason = RpcError.reasonForCode (.int code)
  | _, _ => False

/-- The term is a map with string keys throughout, and JSON values in it. -/
def IsMap (host : Host Term) (term : Term) : Prop := ∃ fields, term = host.ofJson (.obj fields)

/-- What comes back as it was: params that are absent or a JSON map, a result that is one, and
data that are a JSON term, with an id. -/
def Faithful (host : Host Term) : HostMessage Term → Prop
  | .request _ _ params => params = host.null ∨ host.IsMap params
  | .notification _ params => params = host.null ∨ host.IsMap params
  | .response _ result => host.IsMap result
  | .errorResponse id _ _ data _ => id ≠ none ∧ ∃ value, data = host.ofJson value

end Host

namespace Host

variable {Term : Type} {host : Host Term}

theorem isMap_iff {term : Term} {fields : Fields} (h : host.toJson term = .obj fields) :
    host.ofJson (.obj fields) = term ↔ host.IsMap term := by
  constructor
  · exact fun heq => ⟨fields, heq.symm⟩
  · rintro ⟨fields', rfl⟩
    rw [host.toJson_ofJson] at h
    rw [h]

theorem not_isMap {term : Term} (h : ∀ fields, host.toJson term ≠ .obj fields) :
    ¬ host.IsMap term := by
  rintro ⟨fields, rfl⟩
  exact h fields (host.toJson_ofJson _)

variable [DecidableEq Term]

/-- Params are read back as they were just if they are absent or a JSON map. -/
theorem params_iff (params : Term) :
    (∃ read, validateParams ((host.unlessNil "params" params).lookup "params") = some read ∧
        host.ofJson (read.elim .null .obj) = params) ↔
      params = host.null ∨ host.IsMap params := by
  by_cases hnull : params = host.null
  · rw [unlessNil, if_pos hnull]
    exact iff_of_true ⟨none, rfl, hnull.symm⟩ (.inl hnull)
  · rw [unlessNil, if_neg hnull, or_iff_right hnull, List.lookup_cons_self]
    cases hjson : host.toJson params with
    | obj fields =>
      rw [← isMap_iff hjson]
      exact ⟨fun ⟨_, hread, h⟩ => by cases hread; exact h, fun h => ⟨some fields, rfl, h⟩⟩
    | null =>
      refine iff_of_false ?_ (not_isMap (by simp [hjson]))
      rintro ⟨_, hread, h⟩
      cases hread
      exact hnull h.symm
    | bool | int | float | str | arr =>
      exact iff_of_false (by rintro ⟨_, hread, _⟩; cases hread) (not_isMap (by simp [hjson]))

theorem classify_request (id : Id) (method : String) (params : Term) :
    classify (host.toMap (.request id method params)) =
      match validateParams ((host.unlessNil "params" params).lookup "params") with
      | some read => .ok (.request id method read)
      | none => .error ⟨some id, .invalidRequest "params must be an object"⟩ := by
  have hcall : classify (host.toMap (.request id method params)) =
      classifyCall ([("jsonrpc", .str "2.0"), ("id", id.toJson), ("method", .str method)] ++
        host.unlessNil "params" params) method := rfl
  have hparams : ([("jsonrpc", Json.str "2.0"), ("id", id.toJson), ("method", .str method)] ++
      host.unlessNil "params" params).lookup "params" =
        (host.unlessNil "params" params).lookup "params" := rfl
  rw [hcall, classifyCall, hparams]
  cases validateParams ((host.unlessNil "params" params).lookup "params") with
  | none | some => cases id <;> rfl

theorem classify_notification (method : String) (params : Term) :
    classify (host.toMap (.notification method params)) =
      match validateParams ((host.unlessNil "params" params).lookup "params") with
      | some read => .ok (.notification method read)
      | none => .error ⟨none, .invalidRequest "params must be an object"⟩ := by
  have hcall : classify (host.toMap (.notification method params)) =
      classifyCall ([("jsonrpc", .str "2.0"), ("method", .str method)] ++
        host.unlessNil "params" params) method := rfl
  have hparams : ([("jsonrpc", Json.str "2.0"), ("method", .str method)] ++
      host.unlessNil "params" params).lookup "params" =
        (host.unlessNil "params" params).lookup "params" := rfl
  have hid : ([("jsonrpc", Json.str "2.0"), ("method", .str method)] ++
      host.unlessNil "params" params).lookup "id" = none := by
    unfold unlessNil
    split <;> rfl
  rw [hcall, classifyCall, hparams, validId, hid]
  cases validateParams ((host.unlessNil "params" params).lookup "params") with
  | none | some => rfl

theorem fromMap_unlessNil (code : Int) (message : String) (data : Term) :
    RpcError.fromMap ([("code", .int code), ("message", .str message)] ++
        host.unlessNil "data" data) =
      ⟨.int code, .str message, if data = host.null then .null else host.toJson data,
        RpcError.reasonForCode (.int code)⟩ := by
  unfold unlessNil
  split <;> rfl

theorem classify_response (id : Id) (result : Term) :
    classify (host.toMap (.response id result)) =
      match Json.orElse (some (host.toJson result)) (.obj []) with
      | .obj fields => .ok (.response id fields)
      | _ => .error ⟨some id,
          .invalidRequest "Not a valid JSON-RPC request, notification, or response"⟩ := by
  have hreply : classify (host.toMap (.response id result)) =
      classifyReply [("jsonrpc", .str "2.0"), ("id", id.toJson),
        ("result", Json.orElse (some (host.toJson result)) (.obj []))] := rfl
  rw [hreply]
  cases Json.orElse (some (host.toJson result)) (.obj []) <;> cases id <;> rfl

/-- Error data are read back as they were just if they are a JSON term. -/
theorem data_iff (data : Term) :
    host.ofJson (if data = host.null then .null else host.toJson data) = data ↔
      ∃ value, data = host.ofJson value := by
  constructor
  · exact fun h => ⟨_, h.symm⟩
  · rintro ⟨value, rfl⟩
    split
    · next h => exact h.symm
    · rw [host.toJson_ofJson]

/-- The round trip: a message is read as it was, up to the reason of its error, just if it is no
error response without an id and its params, result or data are JSON terms. -/
theorem round_trip_iff (J : Jason) (message : HostMessage Term) :
    (∃ read, J.read (host.write J message) = .ok read ∧ host.Reads read message) ↔
      host.Faithful message := by
  rw [Jason.read, write, J.decode_encode]
  dsimp only
  cases message with
  | request id method params =>
    rw [classify_request, Faithful, ← params_iff]
    cases validateParams ((host.unlessNil "params" params).lookup "params") with
    | none => simp
    | some read => simp [Reads]
  | notification method params =>
    rw [classify_notification, Faithful, ← params_iff]
    cases validateParams ((host.unlessNil "params" params).lookup "params") with
    | none => simp
    | some read => simp [Reads]
  | response id result =>
    rw [classify_response, Faithful]
    cases hjson : host.toJson result with
    | obj fields => simp [Json.orElse, Reads, isMap_iff hjson]
    | null =>
      refine iff_of_false ?_ (not_isMap (by simp [hjson]))
      rintro ⟨read, hread, h⟩
      cases hread
      rw [← h.2, host.toJson_ofJson] at hjson
      cases hjson
    | bool b =>
      refine iff_of_false ?_ (not_isMap (by simp [hjson]))
      rintro ⟨read, hread, h⟩
      cases b <;> cases hread
      rw [← h.2, host.toJson_ofJson] at hjson
      cases hjson
    | int | float | str | arr =>
      exact iff_of_false (by rintro ⟨_, hread, _⟩; cases hread) (not_isMap (by simp [hjson]))
  | errorResponse id code message data reason =>
    cases id with
    | none =>
      refine iff_of_false ?_ fun h => h.1 rfl
      rintro ⟨read, hread, -⟩
      cases hread
    | some id =>
      have hclass : classify (host.toMap (.errorResponse (some id) code message data reason)) =
          .ok (.errorResponse ⟨some id, .fromMap ([("code", .int code), ("message", .str message)] ++
            host.unlessNil "data" data)⟩) := by cases id <;> rfl
      rw [hclass, fromMap_unlessNil, Faithful, ← data_iff]
      simp [Reads]

/-- JSON values, and beside them the maps whose keys are atoms. -/
def atomKeyed : Host (Json ⊕ Fields) where
  toJson := Sum.elim id .obj
  ofJson := .inl
  toJson_ofJson := fun _ => rfl

/-- The message that answers a malformed frame is not read as a message; data with an atom for a key
come back with a string for it. -/
theorem parse_error_unreadable :
    Jason.plain.read (atomKeyed.write Jason.plain
        (.errorResponse none (-32700) "Parse error" atomKeyed.null .parseError)) =
      .error ⟨none, .invalidRequest "Not a valid JSON-RPC request, notification, or response"⟩ ∧
    ∃ read, Jason.plain.read (atomKeyed.write Jason.plain (.errorResponse (some (.int 1)) (-32041)
        "vfs error: eexist" (.inr [("errno", .str "eexist")]) .custom)) = .ok read ∧
      ¬ atomKeyed.Reads read (.errorResponse (some (.int 1)) (-32041) "vfs error: eexist"
        (.inr [("errno", .str "eexist")]) .custom) := by
  refine ⟨rfl, _, rfl, ?_⟩
  rintro ⟨-, -, -, hdata, -⟩
  cases hdata

end Host

end NoizuMcp.Protocol
