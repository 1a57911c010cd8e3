import Mathlib.Data.List.Sort
import NoizuMcp.Foundation.Keyed
import NoizuMcp.Foundation.Transaction
import NoizuMcp.Protocol.Json

/-!
# The tables of `mcp_sync`

The rows of one binding, as `priv/sql/noizu_mcp_sync.sql` keeps them: the cached records,
the queue of local writes, change events set aside for records with an open write, open
and resolved conflicts, and the position in the source's change feed. JSON values are
compared as the database stores them. Timestamps are microseconds.

Columns that no function reads are left out (hashes of the queued requests, error and
outcome texts, the times of updates and checks, the evidence a conflict only displays).
-/

set_option autoImplicit false

namespace NoizuMcp.Sync

open Foundation (Keyed Tx)

open Protocol (Json)

/-- A uuid as its canonical text. -/
abbrev Uuid := String

/-- A second in microseconds. -/
def second : Int := 1000000

/-- `jsonb_typeof(value) = 'object'`. -/
def isObject : Json → Bool
  | .obj _ => true
  | _ => false

/-! ## Errors -/

/-- What a function raises. -/
inductive Message where
  | permissionDenied
  | unsupportedConsistency
  | invalidRequest
  | revisionConflict
  | metadataChangeDenied
  | operationPending
  | resnapshotRequired
  | idempotencyMismatch
  | reconciliationRequired
  | snapshotLimitExceeded
  /-- A text that does not cast. -/
  | invalidText
  | uniqueViolation
  deriving DecidableEq

/-! ## Events -/

instance : LawfulBEq (Option Json) := inferInstance

/-- A field that is read with a cast: missing or null, of the type, or neither. -/
inductive Cast (α : Type) where
  | missing
  | value (a : α)
  | malformed
  deriving DecidableEq

/-- What the functions read of a JSON object that describes a version of a record: a
change event, a snapshot row, the outcome of a mutation, the evidence of a conflict. -/
structure Event where
  key : Option Json := none
  revision : Option String := none
  value : Option Json := none
  deleted : Cast Bool := .missing
  eventId : Cast Int := .missing
  operationId : Option Uuid := none
  deriving DecidableEq

/-- An exception: its message, and the record that a refused mutation found. -/
structure Raised where
  message : Message
  detail : Option Event := none
  deriving DecidableEq

/-- An exception without detail. -/
def Message.raised (message : Message) : Raised := ⟨message, none⟩

/-- The value of a cast; a text that does not cast raises. -/
def Cast.read {α σ : Type} : Cast α → Tx σ Raised (Option α)
  | .missing => pure none
  | .value a => pure (some a)
  | .malformed => throw Message.invalidText.raised

/-- A cursor: a position in the change feed of a binding, a position in a snapshot, or a
text of neither form. -/
inductive Cursor where
  | sync (binding : Uuid) (counter : Nat)
  | snap (snapshot : Uuid) (offset : Nat)
  | other (text : String)
  deriving DecidableEq

/-- `_cursor_counter/2`: no cursor, like the empty text, is the start of the feed. -/
def cursorCounter {σ : Type} (binding : Uuid) : Option Cursor → Tx σ Raised Int
  | none => pure 0
  | some (.sync known counter) =>
    if known = binding then pure counter else throw Message.invalidRequest.raised
  | some (.other "") => pure 0
  | some _ => throw Message.invalidRequest.raised

/-! ## The cache -/

/-- A row of `bindings`, as far as the functions read it. -/
structure Binding where
  id : Uuid
  sourceBindingId : Option Uuid := none
  relation : String
  readWrite : Bool := true
  enabled : Bool := true
  /-- `capabilities->>'idempotencyRetentionSeconds'`. -/
  retentionSeconds : Option Nat := none

/-- The states of a record. -/
inductive RecordState where
  | clean
  | pending
  | conflict
  | blocked
  | tombstone
  deriving DecidableEq

/-- No write of the record is open. -/
def RecordState.settled : RecordState → Bool
  | .clean => true
  | .tombstone => true
  | _ => false

/-- Who wrote a record last. -/
inductive Origin where
  | local
  | remote
  deriving DecidableEq

/-- A row of `records`. -/
structure Record where
  key : Json
  payload : Option Json
  sourceRevision : Option String := none
  sourceCounter : Int := 0
  localRevision : Int := 0
  deleted : Bool := false
  state : RecordState := .pending
  expectedLocalRevision : Option Int := none
  lastOrigin : Origin := .local
  deriving DecidableEq

/-- What an operation does at the source. -/
inductive Operation where
  | create
  | update
  | delete
  deriving DecidableEq

/-- `{"absent": true}` or `{"revision": …}`; `other` is any other JSON value. -/
inductive Precondition where
  | absent
  | revision (revision : Option String)
  | other
  deriving DecidableEq

/-- The states of an operation. -/
inductive OutboxState where
  | pending
  | claimed
  | unknown
  | conflict
  | blocked
  | acknowledged
  | resolved
  deriving DecidableEq

/-- The write is not over: the states of the index `outbox_one_pending`. -/
def OutboxState.isOpen : OutboxState → Bool
  | .acknowledged => false
  | .resolved => false
  | _ => true

/-- The write may still be sent. -/
def OutboxState.isLive : OutboxState → Bool
  | .pending => true
  | .claimed => true
  | .unknown => true
  | _ => false

/-- The write has been handed to a worker and nothing is known about it yet. -/
def OutboxState.inFlight : OutboxState → Bool
  | .claimed => true
  | .unknown => true
  | _ => false

/-- A row of `outbox`. -/
structure Outbox where
  operationId : Uuid
  key : Json
  queuedLocalRevision : Int
  operation : Operation
  precondition : Precondition
  payload : Option Json
  state : OutboxState := .pending
  attempts : Nat := 0
  nextAttemptAt : Int
  leaseUntil : Option Int := none
  fencingToken : Int := 0
  firstAttemptAt : Option Int := none
  deriving DecidableEq

/-- A row of `inbound_deferred`. -/
structure Deferred where
  eventId : Int
  key : Json
  event : Event
  appliedAt : Option Int := none
  deriving DecidableEq

/-- The states of a conflict. -/
inductive ConflictState where
  | open
  | resolved
  deriving DecidableEq

/-- A row of `conflicts`. -/
structure Conflict where
  id : Uuid
  key : Json
  operationId : Uuid
  remoteEvidence : Event
  state : ConflictState := .open
  createdAt : Int
  deriving DecidableEq

/-- The states of a binding. -/
inductive CheckpointStatus where
  | new
  | ready
  | pausedAuth
  deriving DecidableEq

/-- The row of `checkpoints`. -/
structure Checkpoint where
  sourceCursor : Option Cursor := none
  lastEventId : Int := 0
  lastSuccessAt : Option Int := none
  status : CheckpointStatus := .new
  deriving DecidableEq

/-- The rows of one binding. -/
structure Cache where
  records : Keyed Json Record Record.key := ∅
  outbox : Keyed Uuid Outbox Outbox.operationId := ∅
  deferred : Keyed Int Deferred Deferred.eventId := ∅
  conflicts : Keyed Uuid Conflict Conflict.id := ∅
  checkpoint : Option Checkpoint := none

/-- A function of the schema on the rows of a binding. -/
abbrev Sql := Tx Cache Raised

namespace Cache

def setRecord (r : Record) (c : Cache) : Cache := { c with records := c.records.insert r }

def setOperation (o : Outbox) (c : Cache) : Cache :=
  { c with outbox := c.outbox.insert o }

def setDeferred (d : Deferred) (c : Cache) : Cache :=
  { c with deferred := c.deferred.insert d }

def setConflict (conflict : Conflict) (c : Cache) : Cache :=
  { c with conflicts := c.conflicts.insert conflict }

def setCheckpoint (checkpoint : Checkpoint) (c : Cache) : Cache :=
  { c with checkpoint := some checkpoint }

/-- The position in the feed, the start if there is none. -/
def position (c : Cache) : Int := (c.checkpoint.map Checkpoint.lastEventId).getD 0

/-- The open write of a key; by the index there is at most one. -/
def openOperation (c : Cache) (key : Json) : Option Outbox :=
  c.outbox.rows.find? fun o => o.key = key ∧ o.state.isOpen = true

/-- The events set aside for a key, in the order of the feed. -/
def unapplied (c : Cache) (key : Json) : List Deferred :=
  (c.deferred.rows.filter fun d => d.key = key ∧ d.appliedAt = none).insertionSort
    fun d d' => d.eventId ≤ d'.eventId

end Cache

end NoizuMcp.Sync
