import NoizuMcp.Foundation.Program

/-!
# The sink of the streamable HTTP transport

`Noizu.MCP.Transport.StreamableHTTP.Sink` and `Noizu.MCP.Server.EventStore` for one
session. `send_message/3` is a program: it looks up the stream of the request that caused
the message, then the general stream of the session, then stores the message and sends it
to the process it found. Each of these is a step between which other processes run; the
store itself is one process, so an append is one step.
-/

set_option autoImplicit false

namespace NoizuMcp.Transport.StreamableHttp

open Foundation (Prog)

/-! ## The event store -/

/-- An event: its number and its text. -/
abbrev Event (Bin : Type) := Nat × Bin

/-- The counter of the store, and the events of the session in the order of their numbers. -/
structure Store (Bin : Type) where
  seq : Nat := 0
  events : List (Event Bin) := []

/-- `@max_events_per_session`. -/
def maxEventsPerSession : Nat := 1000

section Store

variable {Bin : Type}

/-- `prune/2`: the oldest events over the limit go. -/
def prune (limit : Nat) (events : List (Event Bin)) : List (Event Bin) :=
  events.drop (events.length - limit)

/-- The next number; the oldest events go where there are too many. -/
def Store.append (limit : Nat) (store : Store Bin) (binary : Bin) : Nat × Store Bin :=
  (store.seq + 1,
    { seq := store.seq + 1, events := prune limit (store.events ++ [(store.seq + 1, binary)]) })

/-- The event is after the one the client has seen; without one, or with one that is not a
number (`parse_seq/1`), every event is. -/
def after (last : Option Int) (event : Event Bin) : Bool :=
  match last with
  | none => true
  | some last => decide (last < event.1)

/-- The events with a larger number; all of them without one. -/
def Store.replayAfter (store : Store Bin) (last : Option Int) : List (Event Bin) :=
  store.events.filter (after last)

end Store

/-! ## Sending -/

/-- A message on its way out: its text and the request that caused it. -/
structure Outgoing (Id Bin : Type) where
  binary : Bin
  related : Option Id := none
  deriving DecidableEq

/-- A step of a send. -/
inductive Op (Id Pid Bin : Type) where
  /-- `Registry.lookup` of the stream of a request -/
  | lookupStream (id : Id)
  /-- `Registry.lookup` of the general stream -/
  | lookupGet
  | append (binary : Bin)
  /-- `\x7b:mcp_http, binary\x7d` to a process -/
  | sendHttp (pid : Pid) (binary : Bin)
  /-- `\x7b:mcp_http_event, event, binary\x7d` to the process of the general stream -/
  | sendEvent (event : Nat) (binary : Bin)

/-- What an operation gives back. -/
def Op.Res {Id Pid Bin : Type} : Op Id Pid Bin → Type
  | .lookupStream _ => Option Pid
  | .lookupGet => Bool
  | .append _ => Nat
  | .sendHttp _ _ => Unit
  | .sendEvent _ _ => Unit

/-- A send over its operations. -/
abbrev Send (Id Pid Bin α : Type) := Prog (Op Id Pid Bin) Op.Res α

def perform {Id Pid Bin : Type} (op : Op Id Pid Bin) : Send Id Pid Bin op.Res := Prog.perform op

section Sending

variable {Id Pid Bin : Type}

/-- The message is stored and nobody told. -/
def storing (binary : Bin) : Send Id Pid Bin Unit := do
  let _ ← perform (.append binary)
  return ()

/-- The message is stored and the general stream told. -/
def numbering (binary : Bin) : Send Id Pid Bin Unit := do
  let event ← perform (.append binary)
  perform (.sendEvent event binary)

/-- What follows the look for the general stream. -/
def general (binary : Bin) (found : Bool) : Send Id Pid Bin Unit :=
  if found then numbering binary else storing binary

/-- A message without a stream of its own. -/
def unrelated (binary : Bin) : Send Id Pid Bin Unit := do
  let found ← perform .lookupGet
  general binary found

/-- What follows the look for the stream of the request. -/
def related (binary : Bin) : Option Pid → Send Id Pid Bin Unit
  | some pid => perform (.sendHttp pid binary)
  | none => unrelated binary

/-- `send_message/2`: to the stream of the request it belongs to, if there is one. -/
def sendMessage (message : Outgoing Id Bin) : Send Id Pid Bin Unit :=
  match message.related with
  | none => unrelated message.binary
  | some id => do
    let found ← perform (.lookupStream id)
    related message.binary found

end Sending

end NoizuMcp.Transport.StreamableHttp
