import NoizuMcp.Sync.Source

/-!
# Workers between a cache and its source

`Noizu.MCP.Sync.Worker` over the SQL source (`RevisionedDataset`), as a machine whose
steps are the single calls of the two databases. Any number of workers serve one binding;
between two calls of one of them anything may happen: a worker may stop, its lease may
run out, and a mutation that it has sent may be executed at any time, also after the
worker has given up on it. Clients use the cache and other writers the source. Uuids that
are drawn are new.

The budgets of a staged snapshot and the checks before a claim (the status of the
checkpoint, the capabilities of the source) only make a worker stop early, which it may do
at every point here. In `World.next` a worker hands JSON values on unchanged; in
`World.nextOver` they go through Elixir terms, which keep a number only up to a double.
-/

set_option autoImplicit false

namespace NoizuMcp.Sync

/-! ## Errors on the wire -/

/-- The code that `Store.database_error/1` finds for an exception. -/
def Message.code : Message → SyncCode
  | .permissionDenied => .permissionDenied
  | .unsupportedConsistency => .unsupportedConsistency
  | .invalidRequest => .invalidRequest
  | .revisionConflict => .revisionConflict
  | .metadataChangeDenied => .permissionDenied
  | .operationPending => .pendingOperation
  | .resnapshotRequired => .resnapshotRequired
  | .idempotencyMismatch => .idempotencyMismatch
  | .reconciliationRequired => .reconciliationRequired
  | .snapshotLimitExceeded => .snapshotLimitExceeded
  | .invalidText => .storageError
  | .uniqueViolation => .storageError

/-- What the error carries of the detail. -/
def Raised.evidence (e : Raised) : Event := e.detail.getD {}

/-! ## Delivering -/

/-- The bindings at the two ends, and the relation that the worker names. -/
structure Setup where
  cache : Binding
  source : Binding
  relation : String

/-- `Map.take(operation, ~w(operationId key operation precondition value))` with the
relation that `remote/3` adds. -/
def Claim.request (claim : Claim) (relation : String) : Request where
  operationId := some claim.operationId
  key := some claim.key
  operation := some claim.operation
  precondition := claim.precondition
  value := claim.value
  relation := some relation

/-- `Protocol.validate_mutation/1`. -/
def Request.passes (request : Request) : Bool :=
  request.key.any (fun key => isObject key && decide (key ≠ .obj [])) &&
    request.operationId.any (fun id => decide (id ≠ "")) &&
    match request.operation with
    | none => false
    | some .create => decide (request.precondition = .absent) && request.value.any isObject
    | some .update => request.precondition.isRevision && request.value.any isObject
    | some .delete => request.precondition.isRevision

/-- `expired?/3` with the retention that the source declares, a week. -/
def Claim.expired (claim : Claim) (clock timeout : Int) : Bool :=
  claim.firstAttemptAt.any fun first => 604800 * 1000 ≤ (clock - first) / 1000 + timeout

/-- A snapshot that is being fetched: `snapshot_page/8`. -/
structure Staging where
  cursor : Option Cursor := none
  id : Option Uuid := none
  boundary : Option Cursor := none
  rows : List Event := []
  seen : List Cursor := []
  deriving DecidableEq

/-- What a worker is about to do. -/
inductive Stage where
  | idle
  /-- An operation has been claimed. -/
  | holding (claim : Claim)
  /-- The source has been asked for the outcome of an earlier attempt. -/
  | asking (claim : Claim) (expired : Bool)
  /-- The mutation has been sent. -/
  | waiting (claim : Claim)
  | acking (claim : Claim) (result : Event)
  | failing (claim : Claim) (code : SyncCode) (evidence : Event)
  | pulling (cursor : Cursor)
  | applying (page : ChangePage)
  | staging (staging : Staging)
  | publishing (rows : List Event) (cursor : Cursor) (snapshotId : Uuid)
  deriving DecidableEq

/-- The answer to a mutation. -/
def Stage.answered (claim : Claim) : Except Raised Event → Stage
  | .ok result => .acking claim result
  | .error e => .failing claim e.message.code e.evidence

/-- The next page of a snapshot. -/
def Staging.next (staging : Staging) (page : SnapshotPage) : Stage :=
  if staging.id.all (· = page.snapshotId) = true ∧
      staging.boundary.all (· = page.changeCursor) = true then
    match page.nextCursor with
    | none => .publishing (staging.rows ++ page.rows) page.changeCursor page.snapshotId
    | some next =>
      if next ∈ staging.seen then .idle
      else .staging
        { cursor := some next
          id := some page.snapshotId
          boundary := some page.changeCursor
          rows := staging.rows ++ page.rows
          seen := next :: staging.seen }
  else .idle

/-! ## The system -/

/-- A cache, its source, and what is between them. -/
structure World where
  cache : Cache := {}
  source : Source := {}
  workers : Nat → Stage := fun _ => .idle
  /-- The mutations that have been sent. -/
  sent : List Request := []
  /-- The uuids in use. -/
  known : List Uuid := []

namespace World

/-- Uuids that are drawn are different and not in use. -/
def fresh (world : World) (draws : List Uuid) : Bool :=
  decide draws.Nodup && draws.all fun draw => decide (draw ∉ world.known)

/-- The stage of one worker; the others go on as they were. -/
def setStage (world : World) (w : Nat) (stage : Stage) : World :=
  { world with workers := Function.update world.workers w stage }

/-- A call of a function of the cache. -/
def call (setup : Setup) (world : World) (call : Call) : World :=
  { world with cache := ((call.run setup.cache).commit world.cache).1 }

/-- A call of a function of the source. -/
def atSource {α : Type} (world : World) (tx : SourceSql α) : World :=
  { world with source := (tx.commit world.source).1 }

/-- Uuids that are in use from now on. -/
def learn (world : World) (ids : List Uuid) : World := { world with known := ids ++ world.known }

/-- `mutate/2`: the request is checked and sent. -/
def send (setup : Setup) (world : World) (w : Nat) (claim : Claim) : World :=
  if (claim.request setup.relation).passes then
    { world.setStage w (.waiting claim) with
      sent := claim.request setup.relation :: world.sent }
  else world.setStage w (.failing claim .invalidRequest {})

end World

/-- The calls of clients. -/
def Call.byClient : Call → Bool
  | .put .. => true
  | .remove .. => true
  | .writeRows .. => true
  | .resolve .. => true
  | _ => false

/-- The uuids that a call draws. -/
def Call.draws : Call → List Uuid
  | .put draw .. => [draw]
  | .remove draw .. => [draw]
  | .writeRows _ changes => changes.map Prod.snd
  | .resolve draw .. => [draw]
  | .fail draw .. => [draw]
  | _ => []

/-- A step of the system. -/
inductive Step where
  /-- A client calls the cache. -/
  | client (call : Call)
  /-- Another writer calls the source. -/
  | write (draw : Uuid) (request : Request)
  | claim (w : Nat) (now : Int) (lease : Option Int)
  | deliver (w : Nat) (clock timeout : Int)
  | ask (w : Nat)
  /-- The source executes a mutation that has been sent; the answer may reach a worker
  that waits for it. -/
  | execute (draw : Uuid) (request : Request) (receiver : Option Nat)
  /-- No answer comes in time. -/
  | lose (w : Nat)
  | ack (w : Nat) (now : Int)
  | fail (w : Nat) (now : Int) (draw : Uuid)
  | pull (w : Nat)
  | changes (w : Nat)
  | apply (w : Nat) (now : Int)
  | snapshot (w : Nat)
  | page (w : Nat) (draw : Uuid) (now : Int)
  | publish (w : Nat) (now : Int)
  | pause
  | resume (now : Int)
  | stop (w : Nat)
  deriving DecidableEq

/-- What a claim leaves a worker with. -/
def Stage.claimed : Except Raised (Option Claim) → Stage
  | .ok (some claim) => .holding claim
  | _ => .idle

/-- What a worker does with the page that it asked for. -/
def Stage.fetched {α : Type} (next : α → Stage) : Except Raised α → Stage
  | .ok page => next page
  | .error _ => .idle

/-- `pull_active/1`: the position in the feed, or a first snapshot. -/
def Stage.pulled (checkpoint : Option Checkpoint) : Stage :=
  if checkpoint.any (·.status = .pausedAuth) then .idle
  else match checkpoint.bind Checkpoint.sourceCursor with
    | some cursor => .pulling cursor
    | none => .staging {}

namespace World

/-- The answer to a mutation reaches a worker, if one waits for it. -/
def answer (setup : Setup) (world : World) (request : Request) (reply : Except Raised Event)
    (receiver : Option Nat) : World :=
  match receiver with
  | none => world
  | some w =>
    match world.workers w with
    | .waiting claim =>
      if claim.request setup.relation = request then world.setStage w (.answered claim reply)
      else world
    | _ => world

/-- The outcome that the source remembers of an earlier attempt. -/
def remembered (setup : Setup) (world : World) (w : Nat) (claim : Claim) (expired : Bool) :
    Except Raised (Option Event) → World
  | .ok (some result) => world.setStage w (.acking claim result)
  | .ok none =>
    if expired then world.setStage w (.failing claim .blocked {}) else world.send setup w claim
  | .error e => world.setStage w (.failing claim e.message.code e.evidence)

/-- One step of the system; `none` if it cannot be taken. -/
def step (setup : Setup) (world : World) : Step → Option World
  | .client call =>
    if call.byClient = true ∧ world.fresh call.draws = true then
      some ((world.call setup call).learn call.draws)
    else none
  | .write draw request =>
    if world.fresh [draw] = true then
      some ((world.atSource (sourceMutate setup.source draw request)).learn
        (draw :: request.operationId.toList))
    else none
  | .claim w now lease =>
    match world.workers w with
    | .idle => some ((world.call setup (.claim now lease)).setStage w
        (.claimed ((claimOutbox setup.cache now lease).commit world.cache).2))
    | _ => none
  | .deliver w clock timeout =>
    match world.workers w with
    | .holding claim =>
      if 1 < claim.attempts ∨ claim.expired clock timeout = true then
        some (world.setStage w (.asking claim (claim.expired clock timeout)))
      else some (world.send setup w claim)
    | _ => none
  | .ask w =>
    match world.workers w with
    | .asking claim expired => some (world.remembered setup w claim expired
        ((sourceOperation setup.source claim.operationId).commit world.source).2)
    | _ => none
  | .execute draw request receiver =>
    if request ∈ world.sent ∧ world.fresh [draw] = true then
      some (((world.atSource (sourceMutate setup.source draw request)).learn [draw]).answer setup
        request ((sourceMutate setup.source draw request).commit world.source).2 receiver)
    else none
  | .lose w =>
    match world.workers w with
    | .asking claim _ => some (world.setStage w (.failing claim .unknown {}))
    | .waiting claim => some (world.setStage w (.failing claim .unknown {}))
    | _ => none
  | .ack w now =>
    match world.workers w with
    | .acking claim result => some ((world.call setup
        (.ack now claim.operationId (some claim.fencingToken) result)).setStage w .idle)
    | _ => none
  | .fail w now draw =>
    match world.workers w with
    | .failing claim code evidence =>
      if world.fresh [draw] = true then
        some (((world.call setup (.fail draw now claim.operationId (some claim.fencingToken)
          code evidence)).learn [draw]).setStage w .idle)
      else none
    | _ => none
  | .pull w =>
    match world.workers w with
    | .idle => some (world.setStage w (Stage.pulled world.cache.checkpoint))
    | _ => none
  | .changes w =>
    match world.workers w with
    | .pulling cursor => some (world.setStage w (Stage.fetched .applying
        ((sourceChanges setup.source (some cursor) 500).commit world.source).2))
    | _ => none
  | .apply w now =>
    match world.workers w with
    | .applying page => some ((world.call setup
        (.apply now page.events (some page.nextCursor))).setStage w .idle)
    | _ => none
  | .snapshot w =>
    match world.workers w with
    | .idle => some (world.setStage w (.staging {}))
    | _ => none
  | .page w draw now =>
    match world.workers w with
    | .staging staging =>
      if world.fresh [draw] = true then
        some (((world.atSource (sourceSnapshot setup.source draw now staging.cursor 500)).learn
          [draw]).setStage w (Stage.fetched staging.next
            ((sourceSnapshot setup.source draw now staging.cursor 500).commit world.source).2))
      else none
    | _ => none
  | .publish w now =>
    match world.workers w with
    | .publishing rows cursor id => some ((world.call setup
        (.publish now rows (some cursor) id)).setStage w .idle)
    | _ => none
  | .pause => some (world.call setup .pause)
  | .resume now => some (world.call setup (.resume now))
  | .stop w => some (world.setStage w .idle)

/-- The step function as a machine without outputs. -/
def next (setup : Setup) (world : World) (step : Step) : Option (World × Unit) :=
  (world.step setup step).map fun world' => (world', ())

end World

/-! ## Values on their way -/

/-- What becomes of a `jsonb` value that a worker reads and writes again: Postgrex decodes and
encodes it with Jason, which reads a fraction as a double and writes the digits that tell the
double from others. A value that has come through once stays as it is. -/
structure Codec where
  recode : Protocol.Json → Protocol.Json
  again : ∀ value, recode (recode value) = recode value

/-- The codec that changes no value. -/
def Codec.exact : Codec := ⟨id, fun _ => rfl⟩

section Recoding

variable (codec : Codec)

/-- A claim that has come through the codec. -/
def Claim.recoded (claim : Claim) : Claim :=
  { claim with key := codec.recode claim.key, value := claim.value.map codec.recode }

/-- An event that has come through the codec. -/
def Event.recoded (event : Event) : Event :=
  { event with key := event.key.map codec.recode, value := event.value.map codec.recode }

/-- Everything that a worker holds, as it hands it on. -/
def Stage.recoded : Stage → Stage
  | .idle => .idle
  | .holding claim => .holding (claim.recoded codec)
  | .asking claim expired => .asking (claim.recoded codec) expired
  | .waiting claim => .waiting (claim.recoded codec)
  | .acking claim result => .acking (claim.recoded codec) (result.recoded codec)
  | .failing claim code evidence => .failing (claim.recoded codec) code (evidence.recoded codec)
  | .pulling cursor => .pulling cursor
  | .applying page => .applying { page with events := page.events.map (Event.recoded codec) }
  | .staging soFar => .staging { soFar with rows := soFar.rows.map (Event.recoded codec) }
  | .publishing rows cursor snapshotId =>
    .publishing (rows.map (Event.recoded codec)) cursor snapshotId

/-- The worker that takes the step or receives an answer in it. -/
def Step.worker : Step → Option Nat
  | .client _ | .write .. | .pause | .resume _ => none
  | .execute _ _ receiver => receiver
  | .claim w .. | .deliver w .. | .ask w | .lose w | .ack w _ | .fail w .. | .pull w | .changes w
  | .apply w _ | .snapshot w | .page w .. | .publish w _ | .stop w => some w

/-- The step as the worker takes it, with what it holds gone through the codec. -/
def World.nextOver (setup : Setup) (world : World) (step : Step) : Option (World × Unit) :=
  match step.worker with
  | some w => (world.setStage w ((world.workers w).recoded codec)).next setup step
  | none => world.next setup step

/-- The codec keeps every value that the worker of the step holds. -/
def World.keeps (world : World) (step : Step) : Bool :=
  step.worker.all fun w => decide ((world.workers w).recoded codec = world.workers w)

variable {codec} {setup : Setup} {world : World} {step : Step}

/-- Where the codec keeps the values, the step is the one that hands them on unchanged. -/
theorem World.nextOver_eq (h : world.keeps codec step = true) :
    world.nextOver codec setup step = world.next setup step := by
  unfold World.nextOver
  cases hw : step.worker with
  | none => rfl
  | some w =>
    simp only [World.keeps, hw, Option.all_some, decide_eq_true_eq] at h
    simp only [h, World.setStage, Function.update_eq_self]

end Recoding

end NoizuMcp.Sync
