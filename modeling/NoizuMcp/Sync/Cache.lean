import Mathlib.Algebra.Group.Int.Defs
import NoizuMcp.Sync.Schema

/-!
# The functions of the cache

The functions of `priv/sql/noizu_mcp_sync.sql` that change the cached rows of a binding.
Each call is one transaction: it commits or raises, and then nothing has changed. The
clock reading and the uuid that a call draws are arguments. A caller that the database's
roles do not admit is refused before anything happens, so the role checks are left out;
who runs a statement matters to the trigger of `records`.
-/

set_option autoImplicit false

namespace NoizuMcp.Sync

open Foundation (Keyed Tx)

open Foundation.Tx (raiseIf rescue)

open Protocol (Json)

/-- `_assert_access/2` of a caller who may use the binding. -/
def assertAccess {σ : Type} (b : Binding) (write : Bool) : Tx σ Raised Unit := do
  raiseIf (b.enabled = false) Message.permissionDenied.raised
  raiseIf (write = true ∧ b.readWrite = false) Message.unsupportedConsistency.raised

/-! ## The triggers of `records` -/

/-- Who runs a statement: a client, or one of the functions that run as
`mcp_sync_apply`. -/
inductive Role where
  | client
  | apply
  deriving DecidableEq

/-- The columns that a client must not change. -/
def Record.metadata (r : Record) :
    Json × Option String × Int × Int × RecordState × Origin :=
  (r.key, r.sourceRevision, r.sourceCounter, r.localRevision, r.state, r.lastOrigin)

/-- The last lines of the guard, for the writes of clients. -/
def Record.queued (r : Record) (localRevision : Int) : Record :=
  { r with
    localRevision := localRevision
    expectedLocalRevision := none
    lastOrigin := .local
    state := .pending }

/-- `_record_guard/0`, without `old` for an insert. -/
def recordGuard (b : Binding) (role : Role) (old : Option Record) (new : Record) : Sql Record := do
  raiseIf (isObject new.key = false ∨ new.key = .obj [] ∨
    (new.deleted = false ∧ new.payload.any isObject = false)) Message.invalidRequest.raised
  match role, old with
  | .apply, _ => return { new with expectedLocalRevision := none, lastOrigin := .remote }
  | .client, none => do
    assertAccess b true
    raiseIf (new.expectedLocalRevision ≠ some 0 ∨ new.sourceRevision ≠ none ∨
      new.localRevision ≠ 0 ∨ new.deleted = true) Message.revisionConflict.raised
    return new.queued 1
  | .client, some old => do
    assertAccess b true
    raiseIf (new.metadata ≠ old.metadata) Message.metadataChangeDenied.raised
    raiseIf (new.expectedLocalRevision ≠ some old.localRevision)
      Message.revisionConflict.raised
    raiseIf (old.state.settled = false) Message.operationPending.raised
    return new.queued (old.localRevision + 1)

/-- A new row of `outbox`; its id is new and it is the only open one of its key. -/
def insertOperation (o : Outbox) : Sql Unit := do
  let c ← get
  raiseIf ((c.outbox.lookup o.operationId).isSome = true ∨ (c.openOperation o.key).isSome = true)
    Message.uniqueViolation.raised
  modify (Cache.setOperation o)

/-- `_enqueue_record/0`: what a client wrote goes into the queue. -/
def enqueueRecord (draw : Uuid) (now : Int) (old : Option Record) (new : Record) : Sql Unit :=
  if new.lastOrigin = .remote then pure ()
  else insertOperation
    { operationId := draw
      key := new.key
      queuedLocalRevision := new.localRevision
      operation := if new.deleted then .delete else if old.isNone then .create else .update
      precondition := match old with
        | none => .absent
        | some old => .revision old.sourceRevision
      payload := new.payload
      nextAttemptAt := now }

/-- An `INSERT INTO records` by a client. -/
def insertRecord (b : Binding) (draw : Uuid) (now : Int) (new : Record) : Sql Record := do
  let new ← recordGuard b .client none new
  let c ← get
  raiseIf ((c.records.lookup new.key).isSome = true) Message.uniqueViolation.raised
  modify (Cache.setRecord new)
  enqueueRecord draw now none new
  return new

/-- An `UPDATE records` of one row by a client; `none` if there is no such row. -/
def updateRecord (b : Binding) (draw : Uuid) (now : Int) (key : Json) (change : Record → Record) :
    Sql (Option Record) := do
  let c ← get
  match c.records.lookup key with
  | none => return none
  | some old => do
    let new ← recordGuard b .client (some old) (change old)
    modify (Cache.setRecord new)
    enqueueRecord draw now (some old) new
    return some new

/-- A write of a row by a function that runs as `mcp_sync_apply`. The guard marks it as
remote, so that nothing is queued. -/
def applyRecord (b : Binding) (old : Option Record) (new : Record) : Sql Unit := do
  let new ← recordGuard b .apply old new
  modify (Cache.setRecord new)

/-! ## Calls of clients -/

/-- The answer of `put/4` and `remove/3`. -/
structure Written where
  localRevision : Int
  state : RecordState
  operationId : Option Uuid
  deriving DecidableEq

/-- What a write answers: the revision, the state and the queued operation. -/
def written (r : Record) : Sql Written := do
  let c ← get
  return ⟨r.localRevision, r.state, (c.outbox.rows.find? fun o =>
    o.key = r.key ∧ o.state = .pending).map Outbox.operationId⟩

/-- `put`: an expected revision of zero inserts, any other updates. -/
def put (b : Binding) (draw : Uuid) (now : Int) (key : Json) (payload : Option Json)
    (expected : Option Int) : Sql Written := do
  assertAccess b true
  if expected = some 0 then do
    let r ← rescue
      (insertRecord b draw now { key := key, payload := payload, expectedLocalRevision := some 0 })
      fun e => throw (if e.message = .uniqueViolation then Message.revisionConflict.raised else e)
    written r
  else do
    let r ← updateRecord b draw now key fun old =>
      { old with payload := payload, deleted := false, expectedLocalRevision := expected }
    match r with
    | some r => written r
    | none => throw Message.revisionConflict.raised

/-- `remove`: an update that marks the record as deleted. -/
def remove (b : Binding) (draw : Uuid) (now : Int) (key : Json) (expected : Option Int) :
    Sql Written := do
  assertAccess b true
  let r ← updateRecord b draw now key fun old =>
    { old with deleted := true, expectedLocalRevision := expected }
  match r with
  | some r => written r
  | none => throw Message.revisionConflict.raised

/-- What a statement of a client does to one row, within the columns granted. -/
inductive RowChange where
  | insert (key : Json) (payload : Option Json) (expected : Option Int)
  | update (key : Json) (payload : Option Json) (deleted : Bool) (expected : Option Int)
  deriving DecidableEq

/-- A statement of a client on the table itself, with the uuid drawn for each row. -/
def writeRows (b : Binding) (now : Int) : List (RowChange × Uuid) → Sql Unit
  | [] => pure ()
  | (.insert key payload expected, draw) :: rest => do
    let _ ← insertRecord b draw now
      { key := key, payload := payload, expectedLocalRevision := expected }
    writeRows b now rest
  | (.update key payload deleted expected, draw) :: rest => do
    let _ ← updateRecord b draw now key fun old =>
      { old with payload := payload, deleted := deleted, expectedLocalRevision := expected }
    writeRows b now rest

/-! ## The queue -/

/-- `_operation_json/1`. -/
structure Claim where
  operationId : Uuid
  key : Json
  operation : Operation
  precondition : Precondition
  value : Option Json
  fencingToken : Int
  firstAttemptAt : Option Int
  attempts : Nat
  deriving DecidableEq

/-- What a worker is told of an operation. -/
def Outbox.claim (o : Outbox) : Claim where
  operationId := o.operationId
  key := o.key
  operation := o.operation
  precondition := o.precondition
  value := o.payload
  fencingToken := o.fencingToken
  firstAttemptAt := o.firstAttemptAt
  attempts := o.attempts

/-- The write may be handed out: it waits and its time has come, or its lease is over. -/
def Outbox.due (o : Outbox) (now : Int) : Bool :=
  ((o.state = .pending ∨ o.state = .unknown) ∧ o.nextAttemptAt ≤ now) ∨
    (o.state = .claimed ∧ o.leaseUntil.any (· ≤ now) = true)

/-- The write was first sent longer ago than the source remembers operations. -/
def Outbox.exhausted (o : Outbox) (now retention : Int) : Bool :=
  o.firstAttemptAt.any fun first => first + retention * second ≤ now

/-- The operation under a lease, with one attempt more. -/
def Outbox.claimed (o : Outbox) (now lease : Int) : Outbox :=
  { o with
    state := .claimed
    attempts := o.attempts + 1
    fencingToken := o.fencingToken + 1
    firstAttemptAt := some (o.firstAttemptAt.getD now)
    leaseUntil := some (now + lease * second) }

/-- The operation needs a person. -/
def Outbox.blocked (o : Outbox) : Outbox := { o with state := .blocked, leaseUntil := none }

/-- The record of a blocked operation. -/
def Record.blocked (r : Record) : Record :=
  { r with state := .blocked, localRevision := r.localRevision + 1, lastOrigin := .remote }

/-- The loop of `claim_outbox/2` over the writes that are due. -/
def claimFirst (b : Binding) (now lease retention : Int) : List Outbox → Sql (Option Claim)
  | [] => pure none
  | candidate :: rest => do
    let c ← get
    match c.outbox.lookup candidate.operationId with
    | none => claimFirst b now lease retention rest
    | some o =>
      match c.records.lookup o.key with
      | none => claimFirst b now lease retention rest
      | some r =>
        if o.due now = false then claimFirst b now lease retention rest
        else if o.exhausted now retention then do
          modify (Cache.setOperation o.blocked)
          applyRecord b (some r) r.blocked
          claimFirst b now lease retention rest
        else do
          modify (Cache.setOperation (o.claimed now lease))
          return some (o.claimed now lease).claim

/-- `claim_outbox`: the first operation that is due, those beyond the horizon being blocked. -/
def claimOutbox (b : Binding) (now : Int) (leaseSeconds : Option Int) : Sql (Option Claim) := do
  assertAccess b false
  let c ← get
  if c.checkpoint.any (·.status = .pausedAuth) then return none
  else match leaseSeconds with
    | none => throw Message.invalidRequest.raised
    | some lease => do
      raiseIf (lease < 1 ∨ 300 < lease) Message.invalidRequest.raised
      claimFirst b now lease ((b.retentionSeconds.getD 604800 : Nat) : Int)
        ((c.outbox.rows.filter fun o => o.due now).insertionSort fun o o' =>
          o.nextAttemptAt < o'.nextAttemptAt ∨
            (o.nextAttemptAt = o'.nextAttemptAt ∧ o.operationId ≤ o'.operationId))

/-! ## Events -/

/-- `COALESCE((event->>'deleted')::boolean, false)`. -/
def Event.isDeleted {σ : Type} (e : Event) : Tx σ Raised Bool := do
  let deleted ← e.deleted.read
  return deleted.getD false

/-- The record after a version of the source, at the next local revision. -/
def Record.showing (r : Record) (e : Event) (counter : Int) (deleted : Bool) : Record :=
  { r with
    payload := e.value
    sourceRevision := e.revision
    sourceCounter := counter
    localRevision := r.localRevision + 1
    deleted := deleted
    state := if deleted then .tombstone else .clean
    lastOrigin := .remote }

/-- `_apply_clean_event/2`: an event that is newer than the record replaces it. -/
def applyCleanEvent (b : Binding) (e : Event) : Sql Unit := do
  let seq ← e.eventId.read
  match e.key, seq, e.revision with
  | some key, some seq, some _ => do
    raiseIf (isObject key = false ∨ seq < 0) Message.invalidRequest.raised
    let c ← get
    match c.records.lookup key with
    | some r => do
      raiseIf (r.state.settled = false) Message.operationPending.raised
      if seq ≤ r.sourceCounter then return ()
      else do
        let deleted ← e.isDeleted
        applyRecord b (some r) (r.showing e seq deleted)
    | none => do
      let deleted ← e.isDeleted
      applyRecord b none (({ key := key, payload := none } : Record).showing e seq deleted)
  | _, _, _ => throw Message.invalidRequest.raised

/-- An event that was set aside and has been applied. -/
def Deferred.applied (d : Deferred) (now : Int) : Deferred := { d with appliedAt := some now }

/-- The loop of `_drain_deferred/2`. -/
def drain (b : Binding) (now : Int) : List Deferred → Sql Unit
  | [] => pure ()
  | d :: rest => do
    applyCleanEvent b d.event
    modify (Cache.setDeferred (d.applied now))
    drain b now rest

/-- `_drain_deferred`: the events of the key that still wait, in their order. -/
def drainDeferred (b : Binding) (now : Int) (key : Json) : Sql Unit := do
  let c ← get
  drain b now (c.unapplied key)

/-! ## Outcomes of a write -/

/-- The caller holds the lease under this fence, and the record is as it was queued. A
null fence passes the comparison. -/
def Outbox.held (o : Outbox) (r : Record) (fence : Option Int) (now : Int) : Bool :=
  o.state.inFlight && fence.all (· = o.fencingToken) &&
    decide (o.queuedLocalRevision = r.localRevision) && o.leaseUntil.any (now < ·)

/-- The operation has reached the source. -/
def Outbox.acknowledged (o : Outbox) : Outbox :=
  { o with state := .acknowledged, leaseUntil := none }

/-- `ack_outbox/3`: was the outcome applied? -/
def ackOutbox (b : Binding) (now : Int) (operation : Uuid) (fence : Option Int) (result : Event) :
    Sql Bool := do
  let c ← get
  match c.outbox.lookup operation with
  | none => return false
  | some o => do
    assertAccess b false
    -- the foreign key of `outbox` keeps the record of a queued write in place
    match c.records.lookup o.key with
    | none => return false
    | some r =>
      if o.held r fence now = false then return false
      else do
        raiseIf (result.operationId ≠ some operation ∨ result.key ≠ some o.key ∨
          result.revision = none) Message.invalidRequest.raised
        let seq ← result.eventId.read
        let deleted ← result.isDeleted
        modify (Cache.setOperation o.acknowledged)
        applyRecord b (some r) (r.showing result (seq.getD r.sourceCounter) deleted)
        drainDeferred b now o.key
        return true

/-- The codes of errors, as `fail_outbox/4` tells them apart. -/
inductive SyncCode where
  | revisionConflict
  | idempotencyMismatch
  | unsupportedConsistency
  | invalidRequest
  | blocked
  | permissionDenied
  | invalidToken
  | insufficientScope
  | resnapshotRequired
  | pendingOperation
  | reconciliationRequired
  | snapshotLimitExceeded
  | storageError
  | unknown
  deriving DecidableEq

/-- The write cannot succeed by trying again. -/
def SyncCode.blocks : SyncCode → Bool
  | .blocked => true
  | .idempotencyMismatch => true
  | .unsupportedConsistency => true
  | .invalidRequest => true
  | _ => false

/-- The credential was refused. -/
def SyncCode.isAuth : SyncCode → Bool
  | .permissionDenied => true
  | .invalidToken => true
  | .insufficientScope => true
  | _ => false

/-- The operation met another revision at the source. -/
def Outbox.conflicted (o : Outbox) : Outbox := { o with state := .conflict, leaseUntil := none }

/-- The record of an operation in conflict. -/
def Record.conflicted (r : Record) : Record :=
  { r with state := .conflict, localRevision := r.localRevision + 1, lastOrigin := .remote }

/-- The write after an attempt that did not succeed, to be tried again later. -/
def Outbox.failed (o : Outbox) (now : Int) (state : OutboxState) : Outbox :=
  { o with
    state := state
    leaseUntil := none
    nextAttemptAt := now + min 60 (2 ^ min o.attempts 6) * second }

/-- A checkpoint that is there. -/
def Cache.ensureCheckpoint (c : Cache) : Cache :=
  { c with checkpoint := some (c.checkpoint.getD {}) }

def Checkpoint.paused (checkpoint : Checkpoint) : Checkpoint :=
  { checkpoint with status := .pausedAuth }

/-- `pause_binding`, which also makes a missing checkpoint. -/
def Cache.pause (c : Cache) : Cache := c.setCheckpoint (c.checkpoint.getD {}).paused

/-- The answer of `fail_outbox/4` if it was applied: the new state of the write. -/
def failOutbox (b : Binding) (draw : Uuid) (now : Int) (operation : Uuid) (fence : Option Int)
    (code : SyncCode) (evidence : Event) : Sql (Option OutboxState) := do
  let c ← get
  match c.outbox.lookup operation with
  | none => return none
  | some o => do
    assertAccess b false
    modify Cache.ensureCheckpoint
    match c.records.lookup o.key with
    | none => return none
    | some r =>
      if o.held r fence now = false then return none
      else if code = .revisionConflict then do
        raiseIf ((c.conflicts.lookup draw).isSome = true ∨ c.conflicts.rows.any (fun conflict =>
          conflict.operationId = operation ∧ conflict.state = .open) = true)
          Message.uniqueViolation.raised
        modify (Cache.setConflict
          { id := draw
            key := o.key
            operationId := operation
            remoteEvidence := evidence
            createdAt := now })
        modify (Cache.setOperation o.conflicted)
        applyRecord b (some r) r.conflicted
        return some .conflict
      else if code.blocks then do
        applyRecord b (some r) r.blocked
        modify (Cache.setOperation (o.failed now .blocked))
        return some .blocked
      else do
        modify (Cache.setOperation (o.failed now .unknown))
        modify (if code.isAuth then Cache.pause else id)
        return some .unknown

/-! ## The change feed -/

/-- How many events of a page were applied and set aside. -/
structure Tally where
  applied : Nat := 0
  deferred : Nat := 0
  deriving DecidableEq

/-- An event is set aside, once. -/
def defer (seq : Int) (key : Json) (e : Event) : Sql Unit :=
  modify fun c =>
    if (c.deferred.lookup seq).isSome then c
    else c.setDeferred { eventId := seq, key := key, event := e }

/-- The event answers the write itself, which a worker has sent. -/
def Outbox.answeredBy (o : Outbox) (r : Record) (e : Event) : Bool :=
  o.state.inFlight && o.firstAttemptAt.isSome && decide (e.operationId = some o.operationId) &&
    decide (o.queuedLocalRevision = r.localRevision)

/-- One event of the feed: applied, the answer to the record's own write, or set aside
while the record has an open write. -/
def feedEvent (b : Binding) (now seq : Int) (e : Event) : Sql Bool := do
  let c ← get
  match e.key.bind fun key => c.records.lookup key with
  | none => do
    applyCleanEvent b e
    return true
  | some r =>
    if r.state.settled then do
      applyCleanEvent b e
      return true
    else match (c.openOperation r.key).filter (·.answeredBy r e) with
      | some o => do
        modify (Cache.setOperation o.acknowledged)
        applyRecord b (some r) { r with state := .clean }
        applyCleanEvent b e
        drainDeferred b now r.key
        return true
      | none => do
        defer seq r.key e
        return false

/-- One event in the loop of `apply_changes/3`: what was consumed before is skipped, and
the next one has the next number. -/
def consumeEvent (b : Binding) (now next consumed : Int) (tally : Tally) (e : Event) :
    Sql (Int × Tally) := do
  let seq ← e.eventId.read
  match seq with
  | none => throw Message.invalidRequest.raised
  | some seq => do
    raiseIf (next < seq ∨ seq < 1) Message.invalidRequest.raised
    if seq ≤ consumed then return (consumed, tally)
    else do
      raiseIf (seq ≠ consumed + 1) Message.resnapshotRequired.raised
      let applied ← feedEvent b now seq e
      return (seq, if applied then { tally with applied := tally.applied + 1 }
        else { tally with deferred := tally.deferred + 1 })

/-- The loop of `apply_changes/3`. -/
def consumeEvents (b : Binding) (now next : Int) : Int → Tally → List Event → Sql (Int × Tally)
  | consumed, tally, [] => pure (consumed, tally)
  | consumed, tally, e :: rest => do
    let result ← consumeEvent b now next consumed tally e
    consumeEvents b now next result.1 result.2 rest

/-- `_cursor_counter` of the source's binding. -/
def cacheCursorCounter {σ : Type} (b : Binding) (cursor : Option Cursor) : Tx σ Raised Int :=
  cursorCounter (b.sourceBindingId.getD b.id) cursor

/-- The checkpoint after a page or a snapshot. -/
def Checkpoint.advanced (checkpoint : Checkpoint) (cursor : Option Cursor) (seq now : Int) :
    Checkpoint :=
  { checkpoint with
    sourceCursor := cursor
    lastEventId := seq
    lastSuccessAt := some now
    status := .ready }

/-- `apply_changes/3`: the counts, or `none` for a page that is behind. -/
def applyChanges (b : Binding) (now : Int) (events : List Event) (nextCursor : Option Cursor) :
    Sql (Option Tally) := do
  assertAccess b false
  raiseIf (500 < events.length) Message.invalidRequest.raised
  let next ← cacheCursorCounter b nextCursor
  modify Cache.ensureCheckpoint
  let c ← get
  let checkpoint := c.checkpoint.getD {}
  if next < checkpoint.lastEventId then return none
  else do
    let result ← consumeEvents b now next checkpoint.lastEventId {} events
    raiseIf (result.1 ≠ next) Message.resnapshotRequired.raised
    modify (Cache.setCheckpoint (checkpoint.advanced nextCursor next now))
    return some result.2

/-! ## Snapshots -/

/-- The rows of a snapshot, one after the other. -/
def applyRows (b : Binding) (seq : Int) : List Event → Sql Unit
  | [] => pure ()
  | e :: rest => do
    let counter ← e.eventId.read
    raiseIf (counter.any (seq < ·) = true) Message.invalidRequest.raised
    applyCleanEvent b e
    applyRows b seq rest

/-- A record that the snapshot does not have. -/
def Record.dropped (r : Record) (seq : Int) : Record :=
  { r with
    payload := none
    deleted := true
    state := .tombstone
    sourceCounter := seq
    localRevision := r.localRevision + 1
    expectedLocalRevision := none
    lastOrigin := .remote }

/-- The records that are not deleted and that the snapshot does not have are deleted. -/
def Cache.dropMissing (rows : List Event) (seq : Int) (c : Cache) : Cache :=
  { c with
    records := c.records.mapRows
      (fun r => if r.deleted = false ∧ some r.key ∉ rows.map Event.key then r.dropped seq else r)
      (fun r => by split <;> rfl) }

/-- `publish_snapshot`: refused while anything is open or the position is beyond the snapshot; a
record that the rows lack becomes a tombstone at the snapshot's position. -/
def publishSnapshot (b : Binding) (now : Int) (rows : List Event) (cursor : Option Cursor)
    (snapshotId : String) : Sql Unit := do
  assertAccess b false
  raiseIf (100000 < rows.length ∨ snapshotId = "") Message.invalidRequest.raised
  let seq ← cacheCursorCounter b cursor
  let c ← get
  raiseIf (seq < c.position) Message.revisionConflict.raised
  raiseIf (c.records.rows.any (fun r => !r.state.settled) = true) Message.operationPending.raised
  raiseIf (¬ (rows.map Event.key).Nodup) Message.invalidRequest.raised
  applyRows b seq rows
  modify (Cache.dropMissing rows seq)
  modify fun c => c.setCheckpoint ((c.checkpoint.getD {}).advanced cursor seq now)

/-! ## Conflicts -/

/-- How a conflict is resolved. -/
inductive Strategy where
  | acceptRemote
  | retryLocal
  deriving DecidableEq

/-- The observation with the greatest event id, the first of them. -/
def latest {σ : Type} (best : Event) : List Event → Tx σ Raised Event
  | [] => pure best
  | e :: rest => do
    let known ← best.eventId.read
    let seq ← e.eventId.read
    latest (if known.getD 0 < seq.getD 0 then e else best) rest

/-- Everything set aside for a key counts as applied. -/
def Cache.markApplied (key : Json) (now : Int) (c : Cache) : Cache :=
  { c with
    deferred := c.deferred.mapRows
      (fun d => if d.key = key ∧ d.appliedAt = none then d.applied now else d)
      (fun d => by split <;> rfl) }

/-- A local version that is queued again. -/
def Record.requeued (r : Record) (payload : Option Json) (deleted : Bool) : Record :=
  { r with
    payload := payload
    deleted := deleted
    state := .pending
    localRevision := r.localRevision + 1
    lastOrigin := .remote }

def Outbox.resolved (o : Outbox) : Outbox := { o with state := .resolved }

/-- The answer of `resolve/3`. -/
structure Resolution where
  localRevision : Int
  operationId : Option Uuid
  state : RecordState
  deriving DecidableEq

/-- `resolve/3`: the newest known version of the source replaces the local one, which is
queued again on top of it if the client asks for that. -/
def resolve (b : Binding) (draw : Uuid) (now : Int) (conflict : Uuid) (strategy : Option Strategy)
    (expected : Option Int) : Sql Resolution := do
  let c ← get
  match c.conflicts.lookup conflict with
  | none => throw Message.permissionDenied.raised
  | some conflict => do
    assertAccess b true
    match c.records.lookup conflict.key, c.outbox.lookup conflict.operationId with
    | some r, some o => do
      raiseIf (conflict.state ≠ .open ∨ some r.localRevision ≠ expected)
        Message.revisionConflict.raised
      raiseIf (c.checkpoint.any (fun checkpoint => checkpoint.status = .ready ∧
        checkpoint.lastSuccessAt.any (conflict.createdAt ≤ ·) = true) = false)
        Message.reconciliationRequired.raised
      match strategy with
      | none => throw Message.invalidRequest.raised
      | some strategy => do
        let e ← latest conflict.remoteEvidence ((c.unapplied conflict.key).map Deferred.event)
        raiseIf (e.revision = none) Message.reconciliationRequired.raised
        let seq ← e.eventId.read
        let deleted ← e.isDeleted
        let shown := r.showing e (seq.getD r.sourceCounter) deleted
        modify (Cache.setOperation o.resolved)
        applyRecord b (some r) shown
        modify (Cache.markApplied conflict.key now)
        modify (Cache.setConflict { conflict with state := .resolved })
        match strategy with
        | .acceptRemote => return ⟨shown.localRevision, none, shown.state⟩
        | .retryLocal => do
          let new := shown.requeued r.payload r.deleted
          applyRecord b (some shown) new
          insertOperation
            { operationId := draw
              key := conflict.key
              queuedLocalRevision := new.localRevision
              operation := if r.deleted then .delete else .update
              precondition := .revision e.revision
              payload := r.payload
              nextAttemptAt := now }
          return ⟨new.localRevision, some draw, .pending⟩
    | _, _ => throw Message.revisionConflict.raised

/-! ## Pausing -/

/-- The binding waits for a new credential. -/
def pauseBinding (b : Binding) : Sql Unit := do
  assertAccess b false
  modify Cache.pause

/-- `resume_binding`: a paused binding is ready again, and unknown operations are due. -/
def resumeBinding (b : Binding) (now : Int) : Sql Unit := do
  assertAccess b false
  modify fun c =>
    { c with
      checkpoint := c.checkpoint.map fun checkpoint =>
        if checkpoint.status = .pausedAuth then { checkpoint with status := .ready }
        else checkpoint
      outbox := c.outbox.mapRows
        (fun o => if o.state = .unknown then { o with nextAttemptAt := now } else o)
        (fun o => by split <;> rfl) }

/-! ## Calls -/

/-- A call of a function, or a statement on the table of records, with its arguments, the
clock and the uuid that it draws. -/
inductive Call where
  | put (draw : Uuid) (now : Int) (key : Json) (payload : Option Json) (expected : Option Int)
  | remove (draw : Uuid) (now : Int) (key : Json) (expected : Option Int)
  | writeRows (now : Int) (changes : List (RowChange × Uuid))
  | resolve (draw : Uuid) (now : Int) (conflict : Uuid) (strategy : Option Strategy)
      (expected : Option Int)
  | claim (now : Int) (leaseSeconds : Option Int)
  | ack (now : Int) (operation : Uuid) (fence : Option Int) (result : Event)
  | fail (draw : Uuid) (now : Int) (operation : Uuid) (fence : Option Int) (code : SyncCode)
      (evidence : Event)
  | apply (now : Int) (events : List Event) (nextCursor : Option Cursor)
  | publish (now : Int) (rows : List Event) (cursor : Option Cursor) (snapshotId : String)
  | pause
  | resume (now : Int)
  deriving DecidableEq

/-- What the functions answer. -/
inductive Reply where
  | written (written : Written)
  | resolved (resolution : Resolution)
  | claimed (claim : Option Claim)
  | acknowledged (applied : Bool)
  | failed (state : Option OutboxState)
  | applied (tally : Option Tally)
  | done
  deriving DecidableEq

/-- The function that a call names. -/
def Call.run (b : Binding) : Call → Sql Reply
  | .put draw now key payload expected => Reply.written <$> Sync.put b draw now key payload expected
  | .remove draw now key expected => Reply.written <$> Sync.remove b draw now key expected
  | .writeRows now changes => (fun _ => Reply.done) <$> Sync.writeRows b now changes
  | .resolve draw now conflict strategy expected =>
    Reply.resolved <$> Sync.resolve b draw now conflict strategy expected
  | .claim now leaseSeconds => Reply.claimed <$> claimOutbox b now leaseSeconds
  | .ack now operation fence result => Reply.acknowledged <$> ackOutbox b now operation fence result
  | .fail draw now operation fence code evidence =>
    Reply.failed <$> failOutbox b draw now operation fence code evidence
  | .apply now events nextCursor => Reply.applied <$> applyChanges b now events nextCursor
  | .publish now rows cursor snapshotId =>
    (fun _ => Reply.done) <$> publishSnapshot b now rows cursor snapshotId
  | .pause => (fun _ => Reply.done) <$> pauseBinding b
  | .resume now => (fun _ => Reply.done) <$> resumeBinding b now

/-- One call as a step of the cache. -/
def Cache.step (b : Binding) (c : Cache) (call : Call) :
    Option (Cache × Except Raised Reply) := some ((call.run b).commit c)

/-- The rows of every binding. -/
abbrev Caches := Uuid → Cache

end NoizuMcp.Sync
