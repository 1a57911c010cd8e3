import NoizuMcp.Sync.Cache

/-!
# The life of one record

Every function of the cache acts on the rows of single keys. `Cache.slice` is what the
tables hold of one key, and `Move` lists everything that can happen to it: a client
writes, a worker claims, gives up or settles the write, an event of the feed is applied,
answers the write or is set aside, a conflict is resolved. Drains are part of the moves
that cause them, so that a move goes from one complete state of a record to another. A
`Transition` is a move of one record, or what a snapshot does to all of them at once,
together with the position in the feed.
-/

set_option autoImplicit false

namespace NoizuMcp.Sync

open Foundation (Keyed Tx)

open Protocol (Json)

/-- The value of a cast that succeeds. -/
def Cast.get? {α : Type} : Cast α → Option α
  | .value a => some a
  | _ => none

/-- The number of an event. -/
def Event.seq (e : Event) : Option Int := e.eventId.get?

/-- Does the event delete the record? -/
def Event.removes (e : Event) : Bool := e.deleted.get?.getD false

/-- What the tables hold of one key. -/
@[ext] structure Slice where
  record : Option Record
  ops : Uuid → Option Outbox
  deferred : Int → Option Deferred
  conflicts : Uuid → Option Conflict

namespace Slice

def setRecord (r : Record) (s : Slice) : Slice := { s with record := some r }

def setOperation (o : Outbox) (s : Slice) : Slice :=
  { s with ops := Function.update s.ops o.operationId (some o) }

def setDeferred (d : Deferred) (s : Slice) : Slice :=
  { s with deferred := Function.update s.deferred d.eventId (some d) }

def setConflict (conflict : Conflict) (s : Slice) : Slice :=
  { s with conflicts := Function.update s.conflicts conflict.id (some conflict) }

/-- Every event set aside counts as applied. -/
def markApplied (now : Int) (s : Slice) : Slice :=
  { s with
    deferred := fun id => (s.deferred id).map fun d =>
      if d.appliedAt = none then d.applied now else d }

/-- The writes that wait for another attempt may be tried at once. -/
def reschedule (now : Int) (s : Slice) : Slice :=
  { s with
    ops := fun id => (s.ops id).map fun o =>
      if o.state = .unknown then { o with nextAttemptAt := now } else o }

/-- A conflict is resolved: its write is given up, and what was set aside is taken up. -/
def resolved (o : Outbox) (conflict : Conflict) (now : Int) (s : Slice) : Slice :=
  ((s.setOperation o.resolved).markApplied now).setConflict { conflict with state := .resolved }

/-- No write is open. -/
def Idle (s : Slice) : Prop := ∀ id o, s.ops id = some o → o.state.isOpen = false

/-- The rows are filed under their ids. The write of every conflict is one of the key, and
so is every event set aside, which has been passed in the feed. -/
structure Tidy (key : Json) (position : Int) (s : Slice) : Prop where
  op_id : ∀ id o, s.ops id = some o → o.operationId = id
  conflict_id : ∀ id conflict, s.conflicts id = some conflict → conflict.id = id
  conflicts : ∀ id conflict, s.conflicts id = some conflict →
    ∃ o, s.ops conflict.operationId = some o
  deferred : ∀ id d, s.deferred id = some d →
    d.event.key = some key ∧ d.event.seq = some id ∧ id ≤ position

section Tidy

variable {key : Json} {n n' : Int} {s : Slice}

theorem Tidy.mono (h : s.Tidy key n) (hle : n ≤ n') : s.Tidy key n' := by
  refine ⟨h.op_id, h.conflict_id, h.conflicts, ?_⟩
  intro id d hd
  obtain ⟨hkey, hseq, hid⟩ := h.deferred id d hd
  exact ⟨hkey, hseq, hid.trans hle⟩

theorem Tidy.setRecord (h : s.Tidy key n) (r : Record) : (s.setRecord r).Tidy key n :=
  ⟨h.op_id, h.conflict_id, h.conflicts, h.deferred⟩

theorem setOperation_ops {o o' : Outbox} {id : Uuid} :
    (s.setOperation o).ops id = some o' ↔
      (id = o.operationId ∧ o' = o) ∨ (id ≠ o.operationId ∧ s.ops id = some o') := by
  unfold setOperation
  by_cases hid : id = o.operationId
  · subst hid
    simp [eq_comm]
  · simp [hid]

variable {conflict : Conflict}

theorem setConflict_conflicts {row : Conflict} {id : Uuid} :
    (s.setConflict conflict).conflicts id = some row ↔
      (id = conflict.id ∧ row = conflict) ∨ (id ≠ conflict.id ∧ s.conflicts id = some row) := by
  unfold setConflict
  by_cases hid : id = conflict.id
  · subst hid
    simp [eq_comm]
  · simp [hid]

theorem setDeferred_deferred {d row : Deferred} {id : Int} :
    (s.setDeferred d).deferred id = some row ↔
      (id = d.eventId ∧ row = d) ∨ (id ≠ d.eventId ∧ s.deferred id = some row) := by
  unfold setDeferred
  by_cases hid : id = d.eventId
  · subst hid
    simp [eq_comm]
  · simp [hid]

section

variable (h : s.Tidy key n)

include h

theorem Tidy.setOperation (o : Outbox) : (s.setOperation o).Tidy key n := by
  refine ⟨?_, h.conflict_id, ?_, h.deferred⟩
  · intro id o' ho'
    rcases setOperation_ops.mp ho' with ⟨rfl, rfl⟩ | ⟨_, hold⟩
    · rfl
    · exact h.op_id id o' hold
  · intro id conflict hconflict
    obtain ⟨row, hrow⟩ := h.conflicts id conflict hconflict
    by_cases hid : conflict.operationId = o.operationId
    · exact ⟨o, setOperation_ops.mpr (.inl ⟨hid, rfl⟩)⟩
    · exact ⟨row, setOperation_ops.mpr (.inr ⟨hid, hrow⟩)⟩

theorem Tidy.setConflict (hop : ∃ o, s.ops conflict.operationId = some o) :
    (s.setConflict conflict).Tidy key n := by
  refine ⟨h.op_id, ?_, ?_, h.deferred⟩
  · intro id row hrow
    rcases setConflict_conflicts.mp hrow with ⟨rfl, rfl⟩ | ⟨_, hold⟩
    · rfl
    · exact h.conflict_id id row hold
  · intro id row hrow
    rcases setConflict_conflicts.mp hrow with ⟨_, rfl⟩ | ⟨_, hold⟩
    · exact hop
    · exact h.conflicts id row hold

theorem Tidy.setDeferred {d : Deferred} (hkey : d.event.key = some key)
    (hseq : d.event.seq = some d.eventId) (hle : d.eventId ≤ n) : (s.setDeferred d).Tidy key n := by
  refine ⟨h.op_id, h.conflict_id, h.conflicts, ?_⟩
  intro id row hrow
  rcases setDeferred_deferred.mp hrow with ⟨rfl, rfl⟩ | ⟨_, hold⟩
  · exact ⟨hkey, hseq, hle⟩
  · exact h.deferred id row hold

theorem Tidy.markApplied (now : Int) : (s.markApplied now).Tidy key n := by
  refine ⟨h.op_id, h.conflict_id, h.conflicts, ?_⟩
  intro id row hrow
  obtain ⟨d, hd, rfl⟩ := Option.map_eq_some_iff.mp hrow
  split <;> exact h.deferred id d hd

theorem Tidy.reschedule (now : Int) : (s.reschedule now).Tidy key n := by
  refine ⟨?_, h.conflict_id, ?_, h.deferred⟩
  · intro id o ho
    obtain ⟨o', ho', rfl⟩ := Option.map_eq_some_iff.mp ho
    split <;> exact h.op_id id o' ho'
  · intro id conflict hconflict
    obtain ⟨o, ho⟩ := h.conflicts id conflict hconflict
    exact ⟨_, Option.map_eq_some_iff.mpr ⟨o, ho, rfl⟩⟩

theorem Tidy.resolved {o : Outbox} (now : Int)
    (hconflict : s.conflicts conflict.id = some conflict) :
    (s.resolved o conflict now).Tidy key n := by
  have hop := (h.setOperation o.resolved).conflicts conflict.id conflict hconflict
  exact ((h.setOperation _).markApplied now).setConflict hop

end

end Tidy

/-- The events that are set aside. -/
def Waiting (s : Slice) (e : Event) : Prop :=
  ∃ id d, s.deferred id = some d ∧ d.appliedAt = none ∧ d.event = e

end Slice

/-- The rows of one key. -/
def Cache.slice (c : Cache) (key : Json) : Slice where
  record := c.records.lookup key
  ops := c.outbox.part Outbox.key key
  deferred := c.deferred.part Deferred.key key
  conflicts := c.conflicts.part Conflict.key key

section Slices

variable {c : Cache} {key : Json} {r : Record} {o : Outbox} {d : Deferred} {conflict : Conflict}

theorem slice_setRecord :
    (c.setRecord r).slice key = if r.key = key then (c.slice key).setRecord r else c.slice key := by
  by_cases hkey : r.key = key
  · subst hkey
    rw [if_pos rfl]
    unfold Cache.slice Cache.setRecord Slice.setRecord
    simp only [Keyed.lookup_insert_self]
  · rw [if_neg hkey]
    unfold Cache.slice Cache.setRecord
    simp only [Keyed.lookup_insert_ne (Ne.symm hkey)]

theorem slice_setOperation
    (hkey : ∀ old, c.outbox.lookup o.operationId = some old → old.key = o.key) :
    (c.setOperation o).slice key =
      if o.key = key then (c.slice key).setOperation o else c.slice key := by
  unfold Cache.slice Cache.setOperation Slice.setOperation
  simp only [Keyed.part_insert hkey]
  split <;> rfl

theorem slice_setDeferred
    (hkey : ∀ old, c.deferred.lookup d.eventId = some old → old.key = d.key) :
    (c.setDeferred d).slice key =
      if d.key = key then (c.slice key).setDeferred d else c.slice key := by
  unfold Cache.slice Cache.setDeferred Slice.setDeferred
  simp only [Keyed.part_insert hkey]
  split <;> rfl

theorem slice_setConflict
    (hkey : ∀ old, c.conflicts.lookup conflict.id = some old → old.key = conflict.key) :
    (c.setConflict conflict).slice key =
      if conflict.key = key then (c.slice key).setConflict conflict else c.slice key := by
  unfold Cache.slice Cache.setConflict Slice.setConflict
  simp only [Keyed.part_insert hkey]
  split <;> rfl

theorem slice_markApplied {marked : Json} {now : Int} :
    (c.markApplied marked now).slice key =
      if marked = key then (c.slice key).markApplied now else c.slice key := by
  have hpart : (c.markApplied marked now).deferred.part Deferred.key key =
      fun id => (c.deferred.part Deferred.key key id).map fun d =>
        if d.key = marked ∧ d.appliedAt = none then d.applied now else d :=
    Keyed.part_mapRows (fun d => by split <;> rfl) fun d => by split <;> rfl
  refine Slice.ext ?_ ?_ ?_ ?_
  · show c.records.lookup key = _
    split <;> rfl
  · show c.outbox.part Outbox.key key = _
    split <;> rfl
  · show (c.markApplied marked now).deferred.part Deferred.key key = _
    rw [hpart]
    funext id
    -- the rows of the slice have its key
    cases hd : c.deferred.part Deferred.key key id with
    | none =>
      have hslice : (c.slice key).deferred id = none := hd
      split <;> simp [Slice.markApplied, hslice]
    | some d =>
      have hslice : (c.slice key).deferred id = some d := hd
      have hkey := (Keyed.part_eq_some.mp hd).2
      by_cases hmarked : marked = key
      · simp [hmarked, Slice.markApplied, hslice, hkey]
      · have hne : d.key ≠ marked := fun heq => hmarked (heq.symm.trans hkey)
        simp [hmarked, hslice, hne]
  · show c.conflicts.part Conflict.key key = _
    split <;> rfl

theorem slice_ops_iff {id : Uuid} :
    (c.slice key).ops id = some o ↔ c.outbox.lookup id = some o ∧ o.key = key :=
  Keyed.part_eq_some

theorem slice_deferred_iff {id : Int} :
    (c.slice key).deferred id = some d ↔ c.deferred.lookup id = some d ∧ d.key = key :=
  Keyed.part_eq_some

theorem slice_conflicts_iff {id : Uuid} :
    (c.slice key).conflicts id = some conflict ↔
      c.conflicts.lookup id = some conflict ∧ conflict.key = key :=
  Keyed.part_eq_some

/-- The search for the open write of a key finds none just if the slice has none. -/
theorem openOperation_eq_none : c.openOperation key = none ↔ (c.slice key).Idle := by
  unfold Cache.openOperation Slice.Idle
  rw [Keyed.find?_rows_eq_none]
  constructor
  · intro h id o ho
    obtain ⟨hlookup, hkey⟩ := slice_ops_iff.mp ho
    simpa [hkey] using h id o hlookup
  · intro h id o hlookup
    by_cases hkey : o.key = key
    · simp [h id o (slice_ops_iff.mpr ⟨hlookup, hkey⟩)]
    · simp [hkey]

theorem openOperation_eq_some (h : c.openOperation key = some o) :
    (c.slice key).ops o.operationId = some o ∧ o.state.isOpen = true := by
  obtain ⟨hlookup, hfound⟩ := Keyed.find?_rows h
  obtain ⟨hkey, hopen⟩ := of_decide_eq_true hfound
  exact ⟨slice_ops_iff.mpr ⟨hlookup, hkey⟩, hopen⟩

theorem mem_unapplied : d ∈ c.unapplied key ↔
    (c.slice key).deferred d.eventId = some d ∧ d.appliedAt = none := by
  unfold Cache.unapplied
  rw [List.mem_insertionSort, List.mem_filter, Keyed.mem_rows, slice_deferred_iff]
  simp [and_assoc]

end Slices

/-! ## Moves -/

/-- The row as the guard leaves it for a function that runs as `mcp_sync_apply`. -/
def Record.remote (r : Record) : Record :=
  { r with expectedLocalRevision := none, lastOrigin := .remote }

/-- The row after a version of the source. -/
def Record.shows (r : Record) (e : Event) (counter : Int) : Record :=
  (r.showing e counter e.removes).remote

/-- A client's write of a record over its old version, and the operation that is queued
for it. -/
structure Queues (key : Json) (old : Option Record) (r : Record) (o : Outbox) : Prop where
  key_eq : r.key = key
  op_key : o.key = key
  state : r.state = .pending
  op_state : o.state = .pending
  revision : o.queuedLocalRevision = r.localRevision
  payload : o.payload = r.payload
  unsent : o.firstAttemptAt = none
  created : old = none → r.localRevision = 1 ∧ r.sourceRevision = none ∧ r.sourceCounter = 0 ∧
    o.operation = .create ∧ o.precondition = .absent
  updated : ∀ r₀, old = some r₀ → r₀.state.settled = true ∧
    r.localRevision = r₀.localRevision + 1 ∧ r.sourceRevision = r₀.sourceRevision ∧
    r.sourceCounter = r₀.sourceCounter ∧ o.operation ≠ .create ∧
    o.precondition = .revision r₀.sourceRevision

/-- An event that has been applied to what the cache has of its key. -/
inductive Applies (key : Json) (e : Event) : Option Record → Record → Prop where
  | insert {seq : Int} (hkey : e.key = some key) (hseq : e.seq = some seq) (hpos : 0 ≤ seq)
      (hrevision : e.revision.isSome = true) :
      Applies key e none (({ key := key, payload := none } : Record).shows e seq)
  | newer {r : Record} {seq : Int} (hkey : e.key = some key) (hseq : e.seq = some seq)
      (hrevision : e.revision.isSome = true) (hsettled : r.state.settled = true)
      (hlt : r.sourceCounter < seq) : Applies key e (some r) (r.shows e seq)
  | older {r : Record} {seq : Int} (hkey : e.key = some key) (hseq : e.seq = some seq)
      (hsettled : r.state.settled = true) (hle : seq ≤ r.sourceCounter) :
      Applies key e (some r) r

/-- Events applied one after the other. -/
inductive AppliesAll (key : Json) : List Event → Record → Record → Prop where
  | nil {r : Record} : AppliesAll key [] r r
  | cons {e : Event} {rest : List Event} {r r' r'' : Record} (hfirst : Applies key e (some r) r')
      (hrest : AppliesAll key rest r' r'') : AppliesAll key (e :: rest) r r''

/-- Why a record moves. -/
inductive Cause where
  /-- A client's write, and the id drawn for it. -/
  | client (draw : Uuid)
  /-- Claims, retries and blocks. -/
  | queue
  /-- `fail_outbox` with a revision conflict. -/
  | conflict (operation : Uuid) (evidence : Event)
  /-- `ack_outbox`. -/
  | outcome (operation : Uuid) (result : Event)
  /-- An event of the change feed. -/
  | feed (seq : Int) (e : Event)
  /-- The resolution of a conflict, and the id drawn for a new write. -/
  | resolve (draw : Uuid)

/-- What can happen to the rows of a key. -/
inductive Move (key : Json) : Cause → Slice → Slice → Prop where
  | write {s : Slice} {r : Record} {o : Outbox} (hqueues : Queues key s.record r o)
      (hnew : s.ops o.operationId = none) (hidle : s.Idle) :
      Move key (.client o.operationId) s ((s.setRecord r).setOperation o)
  | claim {s : Slice} {o : Outbox} {now lease : Int} (hop : s.ops o.operationId = some o)
      (hlive : o.state.isLive = true) :
      Move key .queue s (s.setOperation (o.claimed now lease))
  | retry {s : Slice} {o : Outbox} {now : Int} (hop : s.ops o.operationId = some o)
      (hflight : o.state.inFlight = true) :
      Move key .queue s (s.setOperation (o.failed now .unknown))
  | exhaust {s : Slice} {o : Outbox} {r : Record} (hop : s.ops o.operationId = some o)
      (hlive : o.state.isLive = true) (hrecord : s.record = some r) :
      Move key .queue s ((s.setOperation o.blocked).setRecord r.blocked.remote)
  | block {s : Slice} {o : Outbox} {r : Record} {now : Int} (hop : s.ops o.operationId = some o)
      (hlive : o.state.isLive = true) (hrecord : s.record = some r) :
      Move key .queue s ((s.setOperation (o.failed now .blocked)).setRecord r.blocked.remote)
  | conflict {s : Slice} {o : Outbox} {r : Record} {conflict : Conflict}
      (hop : s.ops o.operationId = some o) (hflight : o.state.inFlight = true)
      (hrecord : s.record = some r) (hrevision : o.queuedLocalRevision = r.localRevision)
      (hkey : conflict.key = key) (hopen : conflict.state = .open)
      (hoperation : conflict.operationId = o.operationId)
      (hnew : s.conflicts conflict.id = none)
      (hnone : ∀ id other, s.conflicts id = some other → other.operationId = o.operationId →
        other.state ≠ .open) :
      Move key (.conflict o.operationId conflict.remoteEvidence) s
        (((s.setConflict conflict).setOperation o.conflicted).setRecord r.conflicted.remote)
  | settle {s : Slice} {o : Outbox} {r r' : Record} {result : Event} {events : List Event}
      {now : Int} (hop : s.ops o.operationId = some o) (hflight : o.state.inFlight = true)
      (hrecord : s.record = some r) (hrevision : o.queuedLocalRevision = r.localRevision)
      (hoperation : result.operationId = some o.operationId) (hkey : result.key = some key)
      (hresult : result.revision.isSome = true) (hwaiting : ∀ e, e ∈ events ↔ s.Waiting e)
      (hdrained : AppliesAll key events (r.shows result (result.seq.getD r.sourceCounter)) r') :
      Move key (.outcome o.operationId result) s
        (((s.setOperation o.acknowledged).setRecord r').markApplied now)
  | feed {s : Slice} {r : Record} {seq : Int} {e : Event} (hseq : e.seq = some seq)
      (happlies : Applies key e s.record r) : Move key (.feed seq e) s (s.setRecord r)
  | answer {s : Slice} {o : Outbox} {r r' r'' : Record} {seq : Int} {e : Event}
      {events : List Event} {now : Int} (hseq : e.seq = some seq)
      (hop : s.ops o.operationId = some o) (hflight : o.state.inFlight = true)
      (hsent : o.firstAttemptAt.isSome = true) (hrecord : s.record = some r)
      (hrevision : o.queuedLocalRevision = r.localRevision)
      (hoperation : e.operationId = some o.operationId)
      (happlies : Applies key e (some ({ r with state := .clean } : Record).remote) r')
      (hwaiting : ∀ e, e ∈ events ↔ s.Waiting e) (hdrained : AppliesAll key events r' r'') :
      Move key (.feed seq e) s (((s.setOperation o.acknowledged).setRecord r'').markApplied now)
  | defer {s : Slice} {r : Record} {seq : Int} {e : Event} (hkey : e.key = some key)
      (hseq : e.seq = some seq) (hrecord : s.record = some r) (hopen : r.state.settled = false)
      (hnew : s.deferred seq = none) :
      Move key (.feed seq e) s (s.setDeferred { eventId := seq, key := key, event := e })
  | accept {s : Slice} {o : Outbox} {r : Record} {conflict : Conflict} {e : Event}
      {events : List Event} {now : Int} (hconflict : s.conflicts conflict.id = some conflict)
      (hopen : conflict.state = .open) (hop : s.ops conflict.operationId = some o)
      (hrecord : s.record = some r) (hwaiting : ∀ e, e ∈ events ↔ s.Waiting e)
      (hlatest : e ∈ conflict.remoteEvidence :: events)
      (hmax : ∀ e' ∈ conflict.remoteEvidence :: events, e'.seq.getD 0 ≤ e.seq.getD 0)
      (hrevision : e.revision.isSome = true) {draw : Uuid} :
      Move key (.resolve draw) s
        ((s.resolved o conflict now).setRecord (r.shows e (e.seq.getD r.sourceCounter)))
  | requeue {s : Slice} {o o' : Outbox} {r : Record} {conflict : Conflict} {e : Event}
      {events : List Event} {now : Int} (hconflict : s.conflicts conflict.id = some conflict)
      (hopen : conflict.state = .open) (hop : s.ops conflict.operationId = some o)
      (hrecord : s.record = some r) (hwaiting : ∀ e, e ∈ events ↔ s.Waiting e)
      (hlatest : e ∈ conflict.remoteEvidence :: events)
      (hmax : ∀ e' ∈ conflict.remoteEvidence :: events, e'.seq.getD 0 ≤ e.seq.getD 0)
      (hrevision : e.revision.isSome = true) (hnew : s.ops o'.operationId = none)
      (hidle : (s.setOperation o.resolved).Idle) (hkey : o'.key = key)
      (hstate : o'.state = .pending) (hunsent : o'.firstAttemptAt = none)
      (hqueued : o'.queuedLocalRevision = r.localRevision + 2)
      (hprecondition : o'.precondition = .revision e.revision) (hkind : o'.operation ≠ .create) :
      Move key (.resolve o'.operationId) s
        (((s.resolved o conflict now).setRecord
          ((r.shows e (e.seq.getD r.sourceCounter)).requeued r.payload r.deleted).remote).setOperation
            o')

/-- What a snapshot does to the rows of a key. -/
inductive Published (rows : List Event) (seq : Int) (key : Json) (s : Slice) : Slice → Prop where
  | row {e : Event} {r : Record} (hrow : e ∈ rows) (hle : ∀ n, e.seq = some n → n ≤ seq)
      (happlies : Applies key e s.record r) : Published rows seq key s (s.setRecord r)
  | drop {r : Record} (hmissing : some key ∉ rows.map Event.key) (hrecord : s.record = some r)
      (hkept : r.deleted = false) : Published rows seq key s (s.setRecord (r.dropped seq))
  | keep (hmissing : some key ∉ rows.map Event.key)
      (hdeleted : ∀ r, s.record = some r → r.deleted = true) : Published rows seq key s s

/-! ## Transitions -/

/-- What the tables hold of every key, and the position in the feed. -/
@[ext] structure View where
  position : Int
  slices : Json → Slice

/-- The position and the slice of every key. -/
def Cache.view (c : Cache) : View := ⟨c.position, c.slice⟩

/-- What happens to a view. -/
inductive Act where
  | move (key : Json) (cause : Cause)
  | resume
  | publish (rows : List Event) (seq : Int)

/-- The position after a move: an event of the feed is the next one. -/
def Cause.Advances : Cause → Int → Int → Prop
  | .feed seq _, n, n' => seq = n + 1 ∧ n' = seq
  | _, n, n' => n' = n

/-- What an act does to a view. -/
inductive Transition : Act → View → View → Prop where
  | move {v : View} {key : Json} {cause : Cause} {s : Slice} {n : Int}
      (hposition : cause.Advances v.position n) (hmove : Move key cause (v.slices key) s) :
      Transition (.move key cause) v ⟨n, Function.update v.slices key s⟩
  | resume {v : View} {now : Int} :
      Transition .resume v ⟨v.position, fun key => (v.slices key).reschedule now⟩
  | publish {v : View} {rows : List Event} {seq : Int} {slices : Json → Slice}
      (hposition : v.position ≤ seq)
      (hsettled : ∀ key r, (v.slices key).record = some r → r.state.settled = true)
      (hslices : ∀ key, Published rows seq key (v.slices key) (slices key)) :
      Transition (.publish rows seq) v ⟨seq, slices⟩

/-- Transitions one after the other, of the acts that are admitted. -/
def Path (admits : Act → Prop) : View → View → Prop :=
  Relation.ReflTransGen fun v v' => ∃ act, admits act ∧ Transition act v v'

variable {v v' : View} {admits : Act → Prop}

/-- What every admitted transition keeps holds after them. -/
theorem Path.invariant (I : View → Prop)
    (hI : ∀ act v v', admits act → Transition act v v' → I v → I v') (h : Path admits v v')
    (hv : I v) : I v' := by
  induction h with
  | refl => exact hv
  | tail _ hstep ih =>
    obtain ⟨act, hadmits, htransition⟩ := hstep
    exact hI act _ _ hadmits htransition ih

/-- The rows of every record are as the functions leave them. -/
def View.Tidy (v : View) : Prop := ∀ key, (v.slices key).Tidy key v.position

theorem Cause.Advances.le {cause : Cause} {n n' : Int} (h : cause.Advances n n') : n ≤ n' := by
  cases cause with
  | feed =>
    obtain ⟨rfl, rfl⟩ := h
    omega
  | client | queue | conflict | outcome | resolve => exact le_of_eq (Eq.symm h)

theorem Move.tidy {key : Json} {cause : Cause} {s s' : Slice} {n n' : Int}
    (h : Move key cause s s') (hposition : cause.Advances n n') (hs : s.Tidy key n) :
    s'.Tidy key n' := by
  have hs : s.Tidy key n' := hs.mono hposition.le
  cases h with
  | write => exact (hs.setRecord _).setOperation _
  | claim | retry => exact hs.setOperation _
  | exhaust | block => exact (hs.setOperation _).setRecord _
  | conflict hop _ _ _ _ _ hoperation =>
    exact ((hs.setConflict ⟨_, hoperation ▸ hop⟩).setOperation _).setRecord _
  | settle | answer => exact ((hs.setOperation _).setRecord _).markApplied _
  | feed => exact hs.setRecord _
  | defer hkey hseq => exact hs.setDeferred hkey hseq (le_of_eq hposition.2.symm)
  | accept hconflict => exact (hs.resolved _ hconflict).setRecord _
  | requeue hconflict => exact ((hs.resolved _ hconflict).setRecord _).setOperation _

theorem Published.tidy {rows : List Event} {seq n : Int} {key : Json} {s s' : Slice}
    (h : Published rows seq key s s') (hs : s.Tidy key n) : s'.Tidy key n := by
  cases h with
  | row | drop => exact hs.setRecord _
  | keep => exact hs

theorem Transition.tidy {act : Act} (h : Transition act v v') (hv : v.Tidy) : v'.Tidy := by
  intro k
  cases h with
  | @move _ key _ s n hposition hmove =>
    by_cases hk : k = key
    · subst hk
      simp only [Function.update_self]
      exact hmove.tidy hposition (hv k)
    · simp only [Function.update_of_ne hk]
      exact (hv k).mono hposition.le
  | resume => exact (hv k).reschedule _
  | publish hposition _ hslices => exact (hslices k).tidy ((hv k).mono hposition)

theorem Path.tidy (h : Path admits v v') (hv : v.Tidy) : v'.Tidy :=
  h.invariant View.Tidy (fun _ _ _ _ htransition => htransition.tidy) hv

end NoizuMcp.Sync
