import NoizuMcp.Sync.Cache

/-!
# The SQL source

The source tables of one binding and the functions `source_mutate`, `source_operation`,
`source_changes` and `source_snapshot` of `priv/sql/noizu_mcp_sync.sql`. Every mutation
gets the next number and a fresh revision, and is remembered by its operation id with the
request that made it; where the function stores a digest of the request, the model keeps
the request. Nothing in the schema removes changes or remembered operations.
-/

set_option autoImplicit false

namespace NoizuMcp.Sync

open Foundation (Keyed Tx)

open Foundation.Tx (raiseIf)

open Protocol (Json)

/-! ## Tables -/

/-- A row of `source_records`. -/
structure SourceRecord where
  key : Json
  payload : Json
  revision : String
  deleted : Bool
  counter : Int
  deriving DecidableEq

/-- A row of `source_changes`. -/
structure Change where
  counter : Int
  event : Event
  deriving DecidableEq

/-- The JSON object of a mutation. An operation id that is no uuid is `none`, like one
that is missing, and so is an operation of another name. -/
structure Request where
  operationId : Option Uuid
  key : Option Json
  operation : Option Operation
  precondition : Precondition
  value : Option Json
  relation : Option String
  /-- The other fields of the object. -/
  extra : List (String × Json) := []
  deriving DecidableEq

/-- A row of `source_operations`. -/
structure SourceOperation where
  operationId : Uuid
  request : Request
  outcome : Event
  deriving DecidableEq

/-- A row of `source_snapshots`. -/
structure Snapshot where
  id : Uuid
  rows : List Event
  changeCursor : Cursor
  expiresAt : Int
  deriving DecidableEq

/-- The source tables of one binding, with its row of `source_heads`. -/
structure Source where
  counter : Nat := 0
  retainedAfter : Int := 0
  records : Keyed Json SourceRecord SourceRecord.key := ∅
  changes : List Change := []
  operations : Keyed Uuid SourceOperation SourceOperation.operationId := ∅
  snapshots : Keyed Uuid Snapshot Snapshot.id := ∅

/-- A function of the schema on the source tables. -/
abbrev SourceSql := Tx Source Raised

/-! ## Mutations -/

/-- `key IS NOT DISTINCT FROM jsonb_build_object('id', key->'id')`. -/
def isIdKey : Option Json → Bool
  | some (.obj [(name, _)]) => name = "id"
  | _ => false

/-- The precondition is a revision that is not empty. -/
def Precondition.isRevision : Precondition → Bool
  | .revision (some text) => text ≠ ""
  | _ => false

/-- The checks of `source_mutate/2` on the request itself. -/
def Request.valid (request : Request) (relation : String) : Bool :=
  isIdKey request.key && decide (request.relation = some relation) &&
    match request.operation with
    | none => false
    | some .create => decide (request.precondition = .absent) && request.value.any isObject
    | some .update => request.precondition.isRevision && request.value.any isObject
    | some .delete => request.precondition.isRevision

/-- The record meets the precondition. -/
def Precondition.holds (precondition : Precondition) (present : Option SourceRecord) : Bool :=
  match precondition, present with
  | .absent, none => true
  | .revision (some text), some r => decide (text = r.revision)
  | _, _ => false

/-- The detail of a revision conflict. -/
def conflictDetail (key : Json) (present : Option SourceRecord) : Event :=
  { key := some key
    revision := present.map SourceRecord.revision
    value := some ((present.map SourceRecord.payload).getD .null)
    deleted := .value ((present.map SourceRecord.deleted).getD true)
    eventId := .value ((present.map SourceRecord.counter).getD 0) }

/-- What a mutation leaves at its key. -/
structure Mutation where
  key : Json
  payload : Json
  deleted : Bool

/-- The event of a mutation, which also is its outcome. -/
def Mutation.outcome (m : Mutation) (operation : Uuid) (revision : String) (seq : Int) : Event :=
  { key := some m.key
    revision := some revision
    value := some m.payload
    deleted := .value m.deleted
    eventId := .value seq
    operationId := some operation }

/-- The tables after a mutation that is accepted. -/
def Source.mutated (s : Source) (m : Mutation) (operation : Uuid) (request : Request)
    (revision : String) : Source :=
  { s with
    counter := s.counter + 1
    records := s.records.insert ⟨m.key, m.payload, revision, m.deleted, s.counter + 1⟩
    changes := s.changes ++
      [⟨s.counter + 1, m.outcome operation revision (s.counter + 1)⟩]
    operations := s.operations.insert
      ⟨operation, request, m.outcome operation revision (s.counter + 1)⟩ }

/-- `source_mutate/2`, with the revision that it draws. -/
def sourceMutate (b : Binding) (draw : Uuid) (request : Request) : SourceSql Event := do
  assertAccess b true
  raiseIf (request.valid b.relation = false) Message.invalidRequest.raised
  match request.operationId, request.key with
  | some operation, some key => do
    let s ← get
    match s.operations.lookup operation with
    | some prior => do
      raiseIf (prior.request ≠ request) Message.idempotencyMismatch.raised
      return prior.outcome
    | none => do
      let present := s.records.lookup key
      raiseIf (request.precondition.holds present = false)
        ⟨.revisionConflict, some (conflictDetail key present)⟩
      let deleted := decide (request.operation = some .delete)
      let m : Mutation := ⟨key, if deleted then .null else request.value.getD .null, deleted⟩
      modify fun s => s.mutated m operation request draw
      return m.outcome operation draw (s.counter + 1)
  | _, _ => throw Message.invalidRequest.raised

/-- `source_operation/2` of a uuid: the outcome, or `none` for an unknown operation. -/
def sourceOperation (b : Binding) (operation : Uuid) : SourceSql (Option Event) := do
  assertAccess b false
  let s ← get
  return (s.operations.lookup operation).map SourceOperation.outcome

/-! ## Pages -/

/-- A page of the change feed. -/
structure ChangePage where
  events : List Event
  nextCursor : Cursor
  hasMore : Bool
  deriving DecidableEq

/-- `source_changes`: a page of the events after the cursor, which has to be among those kept. -/
def sourceChanges (b : Binding) (cursor : Option Cursor) (limit : Nat) : SourceSql ChangePage := do
  assertAccess b false
  raiseIf (limit < 1 ∨ 500 < limit) Message.invalidRequest.raised
  let after ← cursorCounter b.id cursor
  let s ← get
  raiseIf (after < s.retainedAfter) Message.resnapshotRequired.raised
  raiseIf (s.counter < after) Message.invalidRequest.raised
  let page := (s.changes.filter fun change => after < change.counter).take limit
  let next := (page.getLast?.map Change.counter).getD after
  return ⟨page.map Change.event, .sync b.id next.toNat,
    s.changes.any fun change => next < change.counter⟩

/-- A page of a snapshot. -/
structure SnapshotPage where
  snapshotId : Uuid
  rows : List Event
  nextCursor : Option Cursor
  changeCursor : Cursor
  deriving DecidableEq

/-- A record as a row of a snapshot. -/
def SourceRecord.row (r : SourceRecord) : Event :=
  { key := some r.key
    revision := some r.revision
    value := some r.payload
    deleted := .value r.deleted
    eventId := .value r.counter }

/-- The rows of a snapshot from an offset on. -/
def Snapshot.page (snapshot : Snapshot) (offset limit : Nat) : SnapshotPage :=
  let rows := (snapshot.rows.drop offset).take limit
  { snapshotId := snapshot.id
    rows := rows
    nextCursor := if offset + rows.length < snapshot.rows.length
      then some (.snap snapshot.id (offset + rows.length)) else none
    changeCursor := snapshot.changeCursor }

/-- Expired snapshots are removed when a new one is taken. -/
def Source.pruned (s : Source) (now : Int) : Source :=
  { s with snapshots := s.snapshots.filterRows fun snapshot => now ≤ snapshot.expiresAt }

/-- A snapshot of the records as they are. -/
def Source.capture (s : Source) (b : Binding) (draw : Uuid) (now : Int) : Snapshot where
  id := draw
  rows := s.records.rows.map SourceRecord.row
  changeCursor := .sync b.id s.counter
  expiresAt := now + 900 * second

/-- `source_snapshot/3`, with the id that it draws for a new snapshot. The order of the
rows in a snapshot is that of the table. -/
def sourceSnapshot (b : Binding) (draw : Uuid) (now : Int) (cursor : Option Cursor)
    (limit : Nat) : SourceSql SnapshotPage := do
  assertAccess b false
  raiseIf (limit < 1 ∨ 500 < limit) Message.invalidRequest.raised
  match cursor with
  | none => do
    let s ← get
    raiseIf (100000 < s.records.rows.length) Message.snapshotLimitExceeded.raised
    modify fun s => { s.pruned now with
      snapshots := (s.pruned now).snapshots.insert (s.capture b draw now) }
    return (s.capture b draw now).page 0 limit
  | some (.snap id offset) => do
    let s ← get
    match (s.snapshots.lookup id).filter fun snapshot => now < snapshot.expiresAt with
    | none => throw Message.resnapshotRequired.raised
    | some snapshot => do
      raiseIf (snapshot.rows.length < offset) Message.invalidRequest.raised
      return snapshot.page offset limit
  | some _ => throw Message.invalidRequest.raised

end NoizuMcp.Sync
