import NoizuMcp.Sync.Source

/-!
# Application users of the schema

What a login role may do that is a member of `mcp_sync_client` and of none of the roles
`mcp_sync_worker`, `mcp_sync_owner` and `mcp_sync_apply`: the functions that are granted
to it, and statements on the tables within its grants and the policies of the rows. A
`SELECT` sees the rows that the policies let through, and answers a function of them; an
`INSERT` or `UPDATE` of `records` changes rows that it computes from them, under the
triggers.

To such a user a binding that is disabled or of another role is like one that is not
there (`Store.bindingFor`): `_assert_access` refuses all three in the same way.
-/

set_option autoImplicit false

namespace NoizuMcp.Sync

open Foundation (Keyed Tx)

open Protocol (Json)

/-- A row of `bindings`, with the role that may use it. -/
structure AppBinding where
  binding : Binding
  appRole : String

def AppBinding.id (b : AppBinding) : Uuid := b.binding.id

/-- The tables of the schema, those of the cache and of the source by binding. -/
structure Store where
  bindings : Keyed Uuid AppBinding AppBinding.id := ∅
  cache : Caches := fun _ => {}
  source : Uuid → Source := fun _ => {}
  /-- The column `binding_id` of `conflicts`. -/
  conflictBinding : Uuid → Option Uuid := fun _ => none

/-- The binding is enabled and of the user's role. -/
def AppBinding.admits (b : AppBinding) (user : String) : Bool :=
  b.binding.enabled && decide (b.appRole = user)

/-- `_can_access/1` of a user who is no worker. -/
def Store.canAccess (s : Store) (user : String) (id : Uuid) : Bool :=
  (s.bindings.lookup id).any (·.admits user)

/-- What `_assert_access/2` refuses, whatever else it is. -/
def deniedBinding (id : Uuid) : Binding := { id := id, relation := "", enabled := false }

/-- The binding as the functions treat it for a user. -/
def Store.bindingFor (s : Store) (user : String) (id : Uuid) : Binding :=
  match (s.bindings.lookup id).filter (·.admits user) with
  | some b => b.binding
  | none => deniedBinding id

/-! ## Rows -/

/-- The rows of a binding that a client may select. -/
structure VisibleRows where
  binding : AppBinding
  records : List Record
  outbox : List Outbox
  checkpoint : Option Checkpoint
  conflicts : List Conflict

/-- What the policies let through. -/
def Store.visible (s : Store) (user : String) : List AppBinding :=
  s.bindings.rows.filter (·.admits user)

/-- What row level security lets a user see. -/
def Store.view (s : Store) (user : String) : List VisibleRows :=
  (s.visible user).map fun b =>
    { binding := b
      records := (s.cache b.id).records.rows
      outbox := (s.cache b.id).outbox.rows
      checkpoint := (s.cache b.id).checkpoint
      conflicts := (s.cache b.id).conflicts.rows }

/-- `ON CONFLICT`, if the key is there already. -/
inductive OnConflict where
  | raise
  | nothing
  | update (payload : Option Json) (deleted : Bool) (expected : Option Int)

/-- What a statement does to one row of `records`, within the columns granted. -/
inductive RowStatement where
  | insert (key : Json) (payload : Option Json) (expected : Option Int) (otherwise : OnConflict)
  | update (key : Json) (payload : Option Json) (deleted : Bool) (expected : Option Int)

/-- An `INSERT` that does not raise for a key that is there: the guard runs first. -/
def insertUnless (b : Binding) (draw : Uuid) (now : Int) (new : Record)
    (otherwise : Sql (Option Record)) : Sql (Option Record) := do
  let new ← recordGuard b .client none new
  let c ← get
  if (c.records.lookup new.key).isSome then otherwise
  else do
    modify (Cache.setRecord new)
    enqueueRecord draw now none new
    return some new

/-- A statement on a row of a binding's view. -/
def RowStatement.run (b : Binding) (draw : Uuid) (now : Int) : RowStatement → Sql (Option Record)
  | .insert key payload expected .raise =>
    some <$> insertRecord b draw now
      { key := key, payload := payload, expectedLocalRevision := expected }
  | .insert key payload expected .nothing =>
    insertUnless b draw now { key := key, payload := payload, expectedLocalRevision := expected }
      (pure none)
  | .insert key payload expected (.update payload' deleted expected') =>
    insertUnless b draw now { key := key, payload := payload, expectedLocalRevision := expected }
      (updateRecord b draw now key fun old =>
        { old with payload := payload', deleted := deleted, expectedLocalRevision := expected' })
  | .update key payload deleted expected =>
    updateRecord b draw now key fun old =>
      { old with payload := payload, deleted := deleted, expectedLocalRevision := expected }

/-- Does the statement look for a row that is there? -/
def RowStatement.isUpdate : RowStatement → Bool
  | .update _ _ _ _ => true
  | _ => false

/-! ## Transactions on all tables -/

/-- A function of the cache on a binding of the user. -/
def Store.onCache {α : Type} (user : String) (id : Uuid) (f : Binding → Sql α) :
    Tx Store Raised α :=
  fun s =>
    match f (s.bindingFor user id) (s.cache id) with
    | .ok (a, c) => .ok (a, { s with cache := Function.update s.cache id c })
    | .error e => .error e

/-- A function of the source on a binding of the user. -/
def Store.onSource {α : Type} (user : String) (id : Uuid) (f : Binding → SourceSql α) :
    Tx Store Raised α :=
  fun s =>
    match f (s.bindingFor user id) (s.source id) with
    | .ok (a, source) => .ok (a, { s with source := Function.update s.source id source })
    | .error e => .error e

/-- The rows of a statement on `records`, of any bindings; an `UPDATE` finds the rows that
the policies let through. -/
def writeStatement (user : String) (now : Int) :
    List (Uuid × RowStatement × Uuid) → Tx Store Raised (List Record)
  | [] => pure []
  | (id, row, draw) :: rest => do
    let s ← get
    if row.isUpdate = true ∧ s.canAccess user id = false then writeStatement user now rest
    else do
      let written ← Store.onCache user id fun b => row.run b draw now
      let others ← writeStatement user now rest
      return written.toList ++ others

/-- `source_capabilities/1`, as far as it depends on the binding. -/
def sourceCapabilities (b : Binding) : SourceSql String := do
  assertAccess b false
  return b.relation

/-- `source_operation/2`; a text that is no uuid is refused once the access is checked. -/
def sourceOperationText (b : Binding) : Option Uuid → SourceSql (Option Event)
  | some operation => sourceOperation b operation
  | none => do
    assertAccess b false
    throw Message.invalidRequest.raised

/-! ## Calls -/

/-- What a user may send, with the clock and the uuids that are drawn. -/
inductive UserCall where
  | canAccess (binding : Uuid)
  | assertAccess (binding : Uuid) (write : Bool)
  | put (binding draw : Uuid) (now : Int) (key : Json) (payload : Option Json)
      (expected : Option Int)
  | remove (binding draw : Uuid) (now : Int) (key : Json) (expected : Option Int)
  | resolve (draw : Uuid) (now : Int) (conflict : Uuid) (strategy : Option Strategy)
      (expected : Option Int)
  | capabilities (binding : Uuid)
  | mutate (binding draw : Uuid) (request : Request)
  | operation (binding : Uuid) (operation : Option Uuid)
  | changes (binding : Uuid) (cursor : Option Cursor) (limit : Nat)
  | snapshot (binding draw : Uuid) (now : Int) (cursor : Option Cursor) (limit : Nat)
  | select
  /-- An `INSERT` or `UPDATE`, with the rows that it computes from those it sees. -/
  | statement (now : Int) (rows : List VisibleRows → List (Uuid × RowStatement × Uuid))

/-- What a user gets back. -/
inductive UserReply where
  | allowed (answer : Bool)
  | done
  | written (written : Written)
  | resolved (resolution : Resolution)
  | capabilities (relation : String)
  | outcome (outcome : Event)
  | operation (outcome : Option Event)
  | changePage (page : ChangePage)
  | snapshotPage (page : SnapshotPage)
  | rows (view : List VisibleRows)
  | returning (records : List Record)

/-- The transaction of a call. -/
def UserCall.tx (user : String) : UserCall → Tx Store Raised UserReply
  | .canAccess id => do
    let s ← get
    return .allowed (s.canAccess user id)
  | .assertAccess id write =>
    (fun _ => .done) <$> Store.onCache user id fun b => Sync.assertAccess b write
  | .put id draw now key payload expected =>
    .written <$> Store.onCache user id fun b => Sync.put b draw now key payload expected
  | .remove id draw now key expected =>
    .written <$> Store.onCache user id fun b => Sync.remove b draw now key expected
  | .resolve draw now conflict strategy expected => do
    let s ← get
    match s.conflictBinding conflict with
    | none => throw Message.permissionDenied.raised
    | some id => .resolved <$> Store.onCache user id fun b =>
      Sync.resolve b draw now conflict strategy expected
  | .capabilities id => .capabilities <$> Store.onSource user id sourceCapabilities
  | .mutate id draw request =>
    .outcome <$> Store.onSource user id fun b => sourceMutate b draw request
  | .operation id text => .operation <$> Store.onSource user id fun b => sourceOperationText b text
  | .changes id cursor limit =>
    .changePage <$> Store.onSource user id fun b => sourceChanges b cursor limit
  | .snapshot id draw now cursor limit =>
    .snapshotPage <$> Store.onSource user id fun b => sourceSnapshot b draw now cursor limit
  | .select => do
    let s ← get
    return .rows (s.view user)
  | .statement now rows => do
    let s ← get
    .returning <$> writeStatement user now (rows (s.view user))

/-- The calls of a user one after the other, with their answers. -/
def session (user : String) : Store → List UserCall → Store × List (Except Raised UserReply)
  | s, [] => (s, [])
  | s, call :: rest =>
    let next := (call.tx user).commit s
    let last := session user next.1 rest
    (last.1, next.2 :: last.2)

end NoizuMcp.Sync
