import NoizuMcp.Foundation.Runs
import NoizuMcp.Sync.Slices

/-!
# What the functions do to the records

Every function of the cache that commits is a sequence of moves of single records, and
moves nothing but the position in the feed besides. For each function a lemma says which
moves these are; what holds of the cache under all of them holds after every call
(`Call.ensures_path`).
-/

set_option autoImplicit false

namespace NoizuMcp.Sync

open Foundation (Keyed Tx)

open Foundation.Tx

open Protocol (Json)

variable {b : Binding} {c c' : Cache} {key : Json} {r r' : Record} {e : Event} {now : Int}

/-! ## Reading -/

variable {σ : Type} {old : Option Record} {Q : Unit → Cache → Prop} {n seq : Int}
  {cursor : Option Cursor} {rows : List Event}

theorem ensures_assertAccess {s : σ} {write : Bool} {Q : Unit → σ → Prop} (h : Q () s) :
    Ensures (assertAccess b write) s Q := by
  unfold assertAccess
  simp only [ensures_bind, ensures_raiseIf]
  intro _ _
  exact h

@[simp] theorem ensures_read {α : Type} {s : σ} {cast : Cast α} {Q : Option α → σ → Prop} :
    Ensures (cast.read : Tx σ Raised (Option α)) s Q ↔ (cast ≠ .malformed → Q cast.get? s) := by
  cases cast with
  | missing | value => simp [Cast.read, Cast.get?]
  | malformed => simp [Cast.read]

@[simp] theorem ensures_isDeleted {s : σ} {Q : Bool → σ → Prop} :
    Ensures (e.isDeleted : Tx σ Raised Bool) s Q ↔ (e.deleted ≠ .malformed → Q e.removes s) := by
  unfold Event.isDeleted
  simp only [ensures_bind, ensures_read, ensures_pure]
  rfl

theorem ensures_applyRecord {new : Record} (h : Q () (c.setRecord new.remote)) :
    Ensures (applyRecord b old new) c Q := by
  unfold applyRecord recordGuard
  simp only [ensures_bind, ensures_raiseIf, ensures_pure, ensures_modify]
  intro _
  exact h

/-! ## One record -/

/-- The record of a key has been written, and nothing else. -/
structure Cache.Writes (c : Cache) (key : Json) (r : Record) (c' : Cache) : Prop where
  record : c'.records.lookup key = some r
  others : ∀ k, k ≠ key → c'.records.lookup k = c.records.lookup k
  outbox : c'.outbox = c.outbox
  deferred : c'.deferred = c.deferred
  conflicts : c'.conflicts = c.conflicts
  checkpoint : c'.checkpoint = c.checkpoint

theorem lookup_setRecord (hkey : r.key = key) : (c.setRecord r).records.lookup key = some r := by
  subst hkey
  exact Keyed.lookup_insert_self

theorem Cache.Writes.set (hkey : r.key = key) : c.Writes key r (c.setRecord r) where
  record := lookup_setRecord hkey
  others := by
    intro k hk
    exact Keyed.lookup_insert_ne (hkey ▸ hk)
  outbox := rfl
  deferred := rfl
  conflicts := rfl
  checkpoint := rfl

theorem Cache.Writes.stay (h : c.records.lookup key = some r) : c.Writes key r c :=
  ⟨h, fun _ _ => rfl, rfl, rfl, rfl, rfl⟩

theorem Cache.Writes.slice_self (h : c.Writes key r c') :
    c'.slice key = (c.slice key).setRecord r := by
  unfold Cache.slice Slice.setRecord
  rw [h.record, h.outbox, h.deferred, h.conflicts]

theorem Cache.Writes.slice_ne (h : c.Writes key r c') {k : Json} (hk : k ≠ key) :
    c'.slice k = c.slice k := by
  unfold Cache.slice
  rw [h.others k hk, h.outbox, h.deferred, h.conflicts]

theorem ensures_applyCleanEvent
    (h : ∀ key r c', Applies key e (c.records.lookup key) r → c.Writes key r c' → Q () c') :
    Ensures (applyCleanEvent b e) c Q := by
  unfold applyCleanEvent
  simp only [ensures_bind, ensures_read]
  intro _
  split
  case h_1 key seq _ hkey hseq hrevision =>
    have hsome : e.revision.isSome = true := by rw [hrevision]; rfl
    simp only [ensures_bind, ensures_raiseIf, ensures_get]
    intro hvalid
    obtain ⟨_, hpos⟩ := not_or.mp hvalid
    split
    case h_1 r hr =>
      simp only [ensures_bind, ensures_raiseIf]
      intro hsettled
      have hsettled : r.state.settled = true := eq_true_of_ne_false hsettled
      split
      case isTrue hle =>
        refine ensures_pure.mpr (h key r c ?_ (.stay hr))
        rw [hr]
        exact .older hkey hseq hsettled hle
      case isFalse hlt =>
        simp only [ensures_bind, ensures_isDeleted]
        intro _
        have hown : r.key = key := Keyed.lookup_key hr
        refine ensures_applyRecord (h key (r.shows e seq) _ ?_ (.set hown))
        rw [hr]
        exact .newer hkey hseq hsome hsettled (not_le.mp hlt)
    case h_2 hnone =>
      simp only [ensures_bind, ensures_isDeleted]
      intro _
      refine ensures_applyRecord (h key _ _ ?_ (.set rfl))
      rw [hnone]
      exact .insert hkey hseq (not_lt.mp hpos) hsome
  case h_2 => exact ensures_throw.mpr trivial

/-- The key of an event that applies. -/
theorem Applies.event_key (h : Applies key e old r) : e.key = some key := by
  cases h <;> assumption

theorem Applies.settled (h : Applies key e old r) : r.state.settled = true := by
  cases h with
  | insert | newer => simp only [Record.shows, Record.remote, Record.showing]; split <;> rfl
  | older _ _ hsettled => exact hsettled

/-! ## Draining -/

/-- The loop of `_drain_deferred/2` applies the events of a key and marks their rows. -/
theorem ensures_drain (t : Keyed Int Deferred Deferred.eventId) :
    ∀ (ds : List Deferred) (c : Cache) (r : Record), c.records.lookup key = some r →
      (∀ d ∈ ds, t.lookup d.eventId = some d ∧ d.event.key = some key) →
      (∀ c' r', AppliesAll key (ds.map Deferred.event) r r' →
        c'.records.lookup key = some r' → (∀ k, k ≠ key → c'.records.lookup k = c.records.lookup k) →
        c'.outbox = c.outbox → c'.conflicts = c.conflicts → c'.checkpoint = c.checkpoint →
        (∀ id, c'.deferred.lookup id =
          if id ∈ ds.map Deferred.eventId then (t.lookup id).map (·.applied now)
          else c.deferred.lookup id) → Q () c') →
      Ensures (drain b now ds) c Q
  | [], c, r, hr, _, h => by
    refine ensures_pure.mpr (h c r .nil hr (fun _ _ => rfl) rfl rfl rfl fun id => ?_)
    simp
  | d :: rest, c, r, hr, hds, h => by
    unfold drain
    simp only [ensures_bind]
    obtain ⟨hd, hkey⟩ := hds d List.mem_cons_self
    refine ensures_applyCleanEvent fun key' r' c' happlies hwrites => ?_
    cases hkey.symm.trans happlies.event_key
    simp only [ensures_modify]
    rw [hr] at happlies
    refine ensures_drain t rest _ r' hwrites.record
      (fun d' hd' => hds d' (List.mem_cons_of_mem _ hd')) ?_
    intro c'' r'' hall hrecord hothers houtbox hconflicts hcheckpoint hdeferred
    refine h c'' r'' (.cons happlies hall) hrecord ?_ (houtbox.trans hwrites.outbox)
      (hconflicts.trans hwrites.conflicts) (hcheckpoint.trans hwrites.checkpoint) ?_
    · intro k hk
      exact (hothers k hk).trans (hwrites.others k hk)
    · intro id
      rw [hdeferred id, List.map_cons]
      by_cases hrest : id ∈ rest.map Deferred.eventId
      · rw [if_pos hrest, if_pos (List.mem_cons_of_mem _ hrest)]
      · rw [if_neg hrest]
        show ((c'.deferred.insert (d.applied now)).lookup id) = _
        rw [Keyed.lookup_insert, hwrites.deferred]
        by_cases hid : id = d.eventId
        · subst hid
          rw [if_pos List.mem_cons_self, hd]
          exact if_pos rfl
        · have hne : id ∉ d.eventId :: rest.map Deferred.eventId := by
            intro hmem
            rcases List.mem_cons.mp hmem with heq | hin
            · exact hid heq
            · exact hrest hin
          rw [if_neg hne]
          exact if_neg hid

theorem mem_unapplied_events : e ∈ (c.unapplied key).map Deferred.event ↔
    (c.slice key).Waiting e := by
  constructor
  · intro he
    obtain ⟨d, hd, rfl⟩ := List.mem_map.mp he
    obtain ⟨hslice, hnone⟩ := mem_unapplied.mp hd
    exact ⟨_, d, hslice, hnone, rfl⟩
  · rintro ⟨id, d, hslice, hnone, rfl⟩
    have hid : d.eventId = id := Keyed.part_key hslice
    subst hid
    exact List.mem_map.mpr ⟨d, mem_unapplied.mpr ⟨hslice, hnone⟩, rfl⟩

/-- `_drain_deferred/2` on a record without an open write. -/
theorem ensures_drainDeferred (hr : c.records.lookup key = some r)
    (htidy : (c.slice key).Tidy key n)
    (h : ∀ c' r' events, (∀ e, e ∈ events ↔ (c.slice key).Waiting e) →
      AppliesAll key events r r' → c'.slice key = ((c.slice key).setRecord r').markApplied now →
      (∀ k, k ≠ key → c'.slice k = c.slice k) → c'.checkpoint = c.checkpoint → Q () c') :
    Ensures (drainDeferred b now key) c Q := by
  have hrows : ∀ d ∈ c.unapplied key,
      c.deferred.lookup d.eventId = some d ∧ d.event.key = some key := by
    intro d hd
    obtain ⟨hslice, _⟩ := mem_unapplied.mp hd
    exact ⟨(slice_deferred_iff.mp hslice).1, (htidy.deferred _ d hslice).1⟩
  refine ensures_drain c.deferred _ c r hr hrows ?_
  intro c' r' hall hrecord hothers houtbox hconflicts hcheckpoint hdeferred
  -- a row is marked just if it is one of the key and not yet applied
  have hmarked : ∀ id d, c.deferred.lookup id = some d →
      (id ∈ (c.unapplied key).map Deferred.eventId ↔ d.key = key ∧ d.appliedAt = none) := by
    intro id d hd
    constructor
    · intro hid
      obtain ⟨d', hd', heq⟩ := List.mem_map.mp hid
      obtain ⟨hslice, hnone⟩ := mem_unapplied.mp hd'
      obtain ⟨hlookup, hkey⟩ := slice_deferred_iff.mp hslice
      rw [heq] at hlookup
      cases hlookup.symm.trans hd
      exact ⟨hkey, hnone⟩
    · rintro ⟨hkey, hnone⟩
      have hid : d.eventId = id := Keyed.lookup_key hd
      refine List.mem_map.mpr ⟨d, mem_unapplied.mpr ⟨slice_deferred_iff.mpr ⟨?_, hkey⟩, hnone⟩, hid⟩
      rw [hid]
      exact hd
  have hpart : ∀ k, c'.deferred.part Deferred.key k = fun id =>
      (c.deferred.part Deferred.key k id).map fun d =>
        if k = key ∧ d.appliedAt = none then d.applied now else d := by
    intro k
    funext id
    unfold Keyed.part
    rw [hdeferred id]
    cases hd : c.deferred.lookup id with
    | none => simp
    | some d =>
      by_cases hk : d.key = k
      · by_cases hin : d.key = key ∧ d.appliedAt = none
        · rw [if_pos ((hmarked id d hd).mpr hin)]
          simp [Option.filter, hk, hin.2, Deferred.applied, ← hk.symm.trans hin.1]
        · rw [if_neg fun hid => hin ((hmarked id d hd).mp hid)]
          rw [hk] at hin
          simp [Option.filter, hk, hin]
      · split <;> simp [Option.filter, hk, Deferred.applied]
  refine h c' r' _ (fun _ => mem_unapplied_events) hall ?_ ?_ hcheckpoint
  · unfold Cache.slice Slice.setRecord Slice.markApplied
    rw [hrecord, houtbox, hconflicts, hpart key]
    simp
  · intro k hk
    unfold Cache.slice
    rw [hothers k hk, houtbox, hconflicts, hpart k]
    simp [hk]

/-! ## Moves of the cache -/

/-- One record moves; the others and the position in the feed stay. -/
structure Cache.MovesAt (c : Cache) (key : Json) (cause : Cause) (c' : Cache) : Prop where
  move : Move key cause (c.slice key) (c'.slice key)
  frame : ∀ k, k ≠ key → c'.slice k = c.slice k
  position : c'.position = c.position

/-- A change of one slice. -/
theorem Cache.MovesAt.of_slice {cause : Cause} (f : Slice → Slice)
    (hslice : ∀ k, c'.slice k = if key = k then f (c.slice k) else c.slice k)
    (hposition : c'.position = c.position) (hmove : Move key cause (c.slice key) (f (c.slice key))) :
    c.MovesAt key cause c' where
  move := by rwa [hslice, if_pos rfl]
  frame := fun k hk => by rw [hslice, if_neg (Ne.symm hk)]
  position := hposition

/-- The revision of a record, `0` if there is none. -/
def Cache.localRevision (c : Cache) (key : Json) : Int :=
  (c.records.lookup key).elim 0 Record.localRevision

section Client

variable {draw : Uuid}

/-- A client's write of a record, as its guard and its queue make it. -/
theorem movesAt_write {o : Outbox} (hold : c.records.lookup key = old)
    (hqueues : Queues key old r o) (hnew : c.outbox.lookup o.operationId = none)
    (hidle : c.openOperation key = none) :
    c.MovesAt key (.client o.operationId) ((c.setRecord r).setOperation o) := by
  have hkey : ∀ row, (c.setRecord r).outbox.lookup o.operationId = some row → row.key = o.key := by
    intro row hrow
    cases hnew.symm.trans hrow
  have hslice : (c.slice key).record = old := hold
  refine .of_slice (fun s => (s.setRecord r).setOperation o) (fun k => ?_) rfl
    (.write (hslice ▸ hqueues) (Keyed.part_eq_none hnew) (openOperation_eq_none.mp hidle))
  rw [slice_setOperation hkey, slice_setRecord, hqueues.op_key, hqueues.key_eq]
  split <;> rfl

theorem ensures_insertOperation {o : Outbox}
    (h : c.outbox.lookup o.operationId = none → c.openOperation o.key = none →
      Q () (c.setOperation o)) : Ensures (insertOperation o) c Q := by
  unfold insertOperation
  simp only [ensures_bind, ensures_get, ensures_raiseIf, ensures_modify]
  intro hfree
  obtain ⟨hnew, hidle⟩ := not_or.mp hfree
  exact h (Option.not_isSome_iff_eq_none.mp hnew) (Option.not_isSome_iff_eq_none.mp hidle)

/-- An insert by a client queues a new record. -/
theorem ensures_insertRecord {new : Record} {Q : Record → Cache → Prop}
    (hcounter : new.sourceCounter = 0)
    (h : ∀ r c', new.expectedLocalRevision = some (c.localRevision new.key) →
      c.MovesAt new.key (.client draw) c' → c'.checkpoint = c.checkpoint → Q r c') :
    Ensures (insertRecord b draw now new) c Q := by
  unfold insertRecord recordGuard
  simp only [ensures_bind, ensures_raiseIf]
  intro _
  refine ensures_assertAccess ?_
  simp only [ensures_pure, ensures_get, ensures_modify]
  intro hguard habsent
  simp only [not_or, not_not] at hguard
  obtain ⟨hexpected, hrevision, _, hdeleted⟩ := hguard
  have habsent : c.records.lookup new.key = none := Option.not_isSome_iff_eq_none.mp habsent
  refine ensures_insertOperation fun hnew hidle => ?_
  refine h _ _ ?_ (movesAt_write habsent ?_ hnew hidle) rfl
  · rw [hexpected, Cache.localRevision, habsent]
    rfl
  refine ⟨rfl, rfl, rfl, rfl, rfl, rfl, rfl, fun _ => ?_, fun _ heq => by cases heq⟩
  exact ⟨rfl, hrevision, hcounter, by simp [Record.queued, hdeleted], rfl⟩

/-- An update by a client queues a new version of a record without an open write. -/
theorem ensures_updateRecord {change : Record → Record} {Q : Option Record → Cache → Prop}
    (hnone : c.records.lookup key = none → Q none c)
    (h : ∀ old r c', (change old).expectedLocalRevision = some (c.localRevision key) →
      c.MovesAt key (.client draw) c' → c'.checkpoint = c.checkpoint → Q (some r) c') :
    Ensures (updateRecord b draw now key change) c Q := by
  unfold updateRecord
  simp only [ensures_bind, ensures_get]
  split
  case h_1 habsent => exact ensures_pure.mpr (hnone habsent)
  case h_2 old hold =>
    unfold recordGuard
    simp only [ensures_bind, ensures_raiseIf]
    intro _
    refine ensures_assertAccess ?_
    simp only [ensures_pure, ensures_modify, ne_eq, not_not]
    intro hmetadata hexpected hsettled
    simp only [Record.metadata, Prod.mk.injEq] at hmetadata
    obtain ⟨hkey, hrevision, hcounter, _, _, _⟩ := hmetadata
    have hown : (change old).key = key := hkey.trans (Keyed.lookup_key hold)
    refine ensures_insertOperation fun hnew hidle => ?_
    refine h old _ _ ?_ (movesAt_write hold ?_ hnew ?_) rfl
    · rw [hexpected, Cache.localRevision, hold]
      rfl
    · refine ⟨hown, hown, rfl, rfl, rfl, rfl, rfl, fun heq => (by cases heq), ?_⟩
      rintro _ ⟨⟩
      refine ⟨eq_true_of_ne_false hsettled, rfl, hrevision, hcounter, ?_, rfl⟩
      show (if _ then Operation.delete else if _ then Operation.create else Operation.update) ≠ _
      split
      · exact fun heq => by cases heq
      · exact fun heq => by cases heq
    · have hopen : (c.setRecord ((change old).queued (old.localRevision + 1))).openOperation
          (change old).key = none := hidle
      rw [hown] at hopen
      exact hopen

variable {Q : Written → Cache → Prop} {expected : Option Int}

theorem ensures_written (h : ∀ reply, Q reply c) : Ensures (written r) c Q := by
  unfold written
  simp only [ensures_bind, ensures_get, ensures_pure]
  exact h _

theorem ensures_put {payload : Option Json}
    (h : ∀ reply c', expected = some (c.localRevision key) → c.MovesAt key (.client draw) c' →
      c'.checkpoint = c.checkpoint → Q reply c') :
    Ensures (put b draw now key payload expected) c Q := by
  unfold put
  simp only [ensures_bind]
  refine ensures_assertAccess ?_
  split
  case isTrue hzero =>
    simp only [ensures_bind]
    refine ensures_rescue ?_ fun e => ensures_throw.mpr trivial
    refine ensures_insertRecord rfl fun r c' hexpected hmoves hsame => ?_
    exact ensures_written fun reply => h reply c' (hzero.trans hexpected) hmoves hsame
  case isFalse =>
    simp only [ensures_bind]
    refine ensures_updateRecord (fun _ => ensures_throw.mpr trivial) ?_
    intro old r c' hexpected hmoves hsame
    exact ensures_written fun reply => h reply c' hexpected hmoves hsame

theorem ensures_remove
    (h : ∀ reply c', expected = some (c.localRevision key) → c.MovesAt key (.client draw) c' →
      c'.checkpoint = c.checkpoint → Q reply c') :
    Ensures (remove b draw now key expected) c Q := by
  unfold remove
  simp only [ensures_bind]
  refine ensures_assertAccess ?_
  refine ensures_updateRecord (fun _ => ensures_throw.mpr trivial) ?_
  intro old r c' hexpected hmoves hsame
  exact ensures_written fun reply => h reply c' hexpected hmoves hsame

/-- What every write of a client keeps holds after a statement. -/
theorem ensures_writeRows (statement : List (RowChange × Uuid)) (I : Cache → Prop)
    (hI : ∀ c c' key, ∀ change ∈ statement, I c → c.MovesAt key (.client change.2) c' →
      c'.checkpoint = c.checkpoint → I c') :
    ∀ (changes : List (RowChange × Uuid)) (c : Cache), (∀ change ∈ changes, change ∈ statement) →
      I c → Ensures (writeRows b now changes) c fun _ c' => I c'
  | [], _, _, hc => ensures_pure.mpr hc
  | (.insert key payload expected, draw) :: rest, c, hin, hc => by
    have hrest := fun change hchange => hin change (List.mem_cons_of_mem _ hchange)
    unfold writeRows
    simp only [ensures_bind]
    refine ensures_insertRecord rfl fun r c' _ hmoves hsame => ?_
    exact ensures_writeRows statement I hI rest c' hrest
      (hI c c' _ _ (hin _ List.mem_cons_self) hc hmoves hsame)
  | (.update key payload deleted expected, draw) :: rest, c, hin, hc => by
    have hrest := fun change hchange => hin change (List.mem_cons_of_mem _ hchange)
    unfold writeRows
    simp only [ensures_bind]
    refine ensures_updateRecord (fun _ => ensures_writeRows statement I hI rest c hrest hc) ?_
    intro old r c' _ hmoves hsame
    exact ensures_writeRows statement I hI rest c' hrest
      (hI c c' key _ (hin _ List.mem_cons_self) hc hmoves hsame)

end Client

/-! ## The queue -/

section Queue

variable {o o' : Outbox}

theorem slice_updateOperation (hop : c.outbox.lookup o.operationId = some o)
    (hid : o'.operationId = o.operationId) (hkey : o'.key = o.key) {k : Json} :
    (c.setOperation o').slice k =
      if o.key = k then (c.slice k).setOperation o' else c.slice k := by
  have hrow : ∀ old, c.outbox.lookup o'.operationId = some old → old.key = o'.key := by
    intro old hold
    rw [hid] at hold
    cases hop.symm.trans hold
    exact hkey.symm
  rw [slice_setOperation hrow, hkey]

/-- A new version of a write and of its record. -/
theorem slice_update (o' : Outbox) (r : Record) (hop : c.outbox.lookup o.operationId = some o)
    (hid : o'.operationId = o.operationId) (hkey : o'.key = o.key) (hr : r.key = o.key) {k : Json} :
    ((c.setOperation o').setRecord r).slice k =
      if o.key = k then ((c.slice k).setOperation o').setRecord r else c.slice k := by
  rw [slice_setRecord, slice_updateOperation hop hid hkey, hr]
  split <;> rfl

variable {cause : Cause} {fence : Option Int} {n seq : Int} {Q : Bool → Cache → Prop}

theorem movesAt_operation (o' : Outbox) (hop : c.outbox.lookup o.operationId = some o)
    (hid : o'.operationId = o.operationId) (hkey : o'.key = o.key)
    (hmove : Move o.key cause (c.slice o.key) ((c.slice o.key).setOperation o')) :
    c.MovesAt o.key cause (c.setOperation o') := by
  exact .of_slice _ (fun _ => slice_updateOperation hop hid hkey) rfl hmove

theorem movesAt_update (o' : Outbox) (r : Record) (hop : c.outbox.lookup o.operationId = some o)
    (hid : o'.operationId = o.operationId) (hkey : o'.key = o.key) (hr : r.key = o.key)
    (hmove : Move o.key cause (c.slice o.key) (((c.slice o.key).setOperation o').setRecord r)) :
    c.MovesAt o.key cause ((c.setOperation o').setRecord r) := by
  exact .of_slice (fun s => (s.setOperation o').setRecord r)
    (fun _ => slice_update o' r hop hid hkey hr) rfl hmove

theorem slice_ops_self (hop : c.outbox.lookup o.operationId = some o) :
    (c.slice o.key).ops o.operationId = some o := slice_ops_iff.mpr ⟨hop, rfl⟩

theorem Outbox.live_of_due (h : o.due now = true) : o.state.isLive = true := by
  rcases of_decide_eq_true h with ⟨hstate | hstate, _⟩ | ⟨hstate, _⟩
  all_goals rw [hstate]; rfl

theorem OutboxState.live_of_inFlight {state : OutboxState} (h : state.inFlight = true) :
    state.isLive = true := by
  cases state <;> first | rfl | cases h

/-- What every move of the queue keeps holds after a claim, and the claim is the write as
it then stands. -/
theorem ensures_claimFirst {lease retention : Int} (I : Cache → Prop)
    (hI : ∀ c c' key, I c → c.MovesAt key .queue c' → c'.checkpoint = c.checkpoint → I c') :
    ∀ (candidates : List Outbox) (c : Cache), I c →
      Ensures (claimFirst b now lease retention candidates) c fun reply c' =>
        I c' ∧ ∀ claim, reply = some claim → ∃ o, c'.outbox.lookup o.operationId = some o ∧
          o.firstAttemptAt.isSome = true ∧ claim = o.claim
  | [], c, hc => ensures_pure.mpr ⟨hc, fun _ heq => by cases heq⟩
  | candidate :: rest, c, hc => by
    unfold claimFirst
    simp only [ensures_bind, ensures_get]
    split
    case h_1 => exact ensures_claimFirst I hI rest c hc
    case h_2 o ho =>
      have hid : o.operationId = candidate.operationId := Keyed.lookup_key ho
      have hop : c.outbox.lookup o.operationId = some o := by rw [hid]; exact ho
      split
      case h_1 => exact ensures_claimFirst I hI rest c hc
      case h_2 r hr =>
        have hown : r.key = o.key := Keyed.lookup_key hr
        split
        case isTrue => exact ensures_claimFirst I hI rest c hc
        case isFalse hdue =>
          have hlive := Outbox.live_of_due (eq_true_of_ne_false hdue)
          split
          case isTrue =>
            simp only [ensures_bind, ensures_modify]
            refine ensures_applyRecord (ensures_claimFirst I hI rest _ (hI c _ o.key hc ?_ rfl))
            exact movesAt_update o.blocked r.blocked.remote hop rfl rfl hown
              (.exhaust (slice_ops_self hop) hlive hr)
          case isFalse =>
            simp only [ensures_bind, ensures_modify, ensures_pure]
            refine ⟨hI c _ o.key hc ?_ rfl, ?_⟩
            · exact movesAt_operation (o.claimed now lease) hop rfl rfl
                (.claim (slice_ops_self hop) hlive)
            · rintro _ ⟨⟩
              exact ⟨_, Keyed.lookup_insert_self, rfl, rfl⟩

theorem ensures_claimOutbox {leaseSeconds : Option Int} (I : Cache → Prop)
    (hI : ∀ c c' key, I c → c.MovesAt key .queue c' → c'.checkpoint = c.checkpoint → I c')
    (hc : I c) :
    Ensures (claimOutbox b now leaseSeconds) c fun reply c' =>
      I c' ∧ ∀ claim, reply = some claim → ∃ o, c'.outbox.lookup o.operationId = some o ∧
        o.firstAttemptAt.isSome = true ∧ claim = o.claim := by
  unfold claimOutbox
  simp only [ensures_bind]
  refine ensures_assertAccess ?_
  simp only [ensures_get]
  split
  case isTrue => exact ensures_pure.mpr ⟨hc, fun _ heq => by cases heq⟩
  case isFalse =>
    split
    case h_1 => exact ensures_throw.mpr trivial
    case h_2 =>
      simp only [ensures_bind, ensures_raiseIf]
      intro _
      exact ensures_claimFirst I hI _ c hc

/-! ## Outcomes -/

theorem Outbox.held_eq (h : o.held r fence now = true) :
    o.state.inFlight = true ∧ o.queuedLocalRevision = r.localRevision := by
  unfold Outbox.held at h
  simp only [Bool.and_eq_true, decide_eq_true_eq] at h
  exact ⟨h.1.1.1, h.1.2⟩

theorem Cache.position_congr (h : c'.checkpoint = c.checkpoint) : c'.position = c.position := by
  unfold Cache.position
  rw [h]

theorem ensures_ackOutbox {operation : Uuid} {result : Event}
    (htidy : ∀ key, (c.slice key).Tidy key n) (hfalse : Q false c)
    (h : ∀ key c', c.MovesAt key (.outcome operation result) c' → Q true c') :
    Ensures (ackOutbox b now operation fence result) c Q := by
  unfold ackOutbox
  simp only [ensures_bind, ensures_get]
  split
  case h_1 => exact ensures_pure.mpr hfalse
  case h_2 o ho =>
    have hid : o.operationId = operation := Keyed.lookup_key ho
    subst hid
    simp only [ensures_bind]
    refine ensures_assertAccess ?_
    split
    case h_1 => exact ensures_pure.mpr hfalse
    case h_2 r hr =>
      have hown : r.key = o.key := Keyed.lookup_key hr
      split
      case isTrue => exact ensures_pure.mpr hfalse
      case isFalse hheld =>
        obtain ⟨hflight, hrevision⟩ := Outbox.held_eq (eq_true_of_ne_false hheld)
        simp only [ensures_bind, ensures_raiseIf, ensures_read, ensures_isDeleted, ensures_modify]
        intro hvalid _ _
        simp only [not_or, not_not] at hvalid
        obtain ⟨hoperation, hkey, hsome⟩ := hvalid
        refine ensures_applyRecord ?_
        -- the row is shown, then what was set aside for it is drained
        show Ensures _ ((c.setOperation o.acknowledged).setRecord
          (r.shows result (result.seq.getD r.sourceCounter))) _
        simp only [ensures_pure]
        have hslice := fun k => slice_update (k := k) o.acknowledged
          (r.shows result (result.seq.getD r.sourceCounter)) ho rfl rfl hown
        have hself := (hslice o.key).trans (if_pos rfl)
        have hdrains : (((c.slice o.key).setOperation o.acknowledged).setRecord
            (r.shows result (result.seq.getD r.sourceCounter))).Tidy o.key n :=
          ((htidy o.key).setOperation _).setRecord _
        rw [← hself] at hdrains
        refine ensures_drainDeferred (lookup_setRecord hown) hdrains ?_
        intro c' r' events hwaiting hall hdrained hframe hcheckpoint
        refine h o.key c' ⟨?_, ?_, ?_⟩
        · rw [hself] at hwaiting hdrained
          rw [hdrained]
          exact .settle (slice_ops_self ho) hflight hr hrevision hoperation hkey
            (Option.isSome_iff_ne_none.mpr hsome) hwaiting hall
        · intro k hk
          rw [hframe k hk, hslice, if_neg (Ne.symm hk)]
        · exact Cache.position_congr hcheckpoint

@[simp] theorem view_ensureCheckpoint : c.ensureCheckpoint.view = c.view := by
  refine View.ext ?_ rfl
  show c.ensureCheckpoint.position = c.position
  unfold Cache.ensureCheckpoint Cache.position
  cases c.checkpoint <;> rfl

@[simp] theorem view_pause : c.pause.view = c.view := by
  refine View.ext ?_ rfl
  show c.pause.position = c.position
  unfold Cache.pause Cache.setCheckpoint Cache.position
  cases c.checkpoint <;> rfl

/-- A move depends on the cache only by what it views. -/
theorem Cache.MovesAt.congr {c₁ c₁' : Cache} (h : c.MovesAt key cause c')
    (hbefore : c₁.view = c.view) (hafter : c₁'.view = c'.view) : c₁.MovesAt key cause c₁' := by
  have hslices : c₁.slice = c.slice := congrArg View.slices hbefore
  have hslices' : c₁'.slice = c'.slice := congrArg View.slices hafter
  have hposition : c₁.position = c.position := congrArg View.position hbefore
  have hposition' : c₁'.position = c'.position := congrArg View.position hafter
  refine ⟨?_, ?_, ?_⟩
  · rw [hslices, hslices']
    exact h.move
  · rw [hslices, hslices']
    exact h.frame
  · rw [hposition, hposition', h.position]

/-- A conflict is recorded with its write and its record. -/
theorem movesAt_conflict (conflict : Conflict) (hop : c.outbox.lookup o.operationId = some o)
    (hr : c.records.lookup o.key = some r) (hflight : o.state.inFlight = true)
    (hrevision : o.queuedLocalRevision = r.localRevision)
    (hkey : conflict.key = o.key) (hoperation : conflict.operationId = o.operationId)
    (hopen : conflict.state = .open) (hnew : c.conflicts.lookup conflict.id = none)
    (hnone : ∀ id other, c.conflicts.lookup id = some other → other.operationId = o.operationId →
      other.state ≠ .open) :
    c.MovesAt o.key (.conflict o.operationId conflict.remoteEvidence)
      (((c.setConflict conflict).setOperation o.conflicted).setRecord r.conflicted.remote) := by
  have hown : r.key = o.key := Keyed.lookup_key hr
  have hrow : ∀ row, c.conflicts.lookup conflict.id = some row → row.key = conflict.key := by
    intro row hrow
    cases hnew.symm.trans hrow
  refine .of_slice (fun s =>
    ((s.setConflict conflict).setOperation o.conflicted).setRecord r.conflicted.remote)
    (fun k => ?_) rfl (.conflict (slice_ops_self hop) hflight hr hrevision hkey hopen hoperation
      (Keyed.part_eq_none hnew) ?_)
  · rw [slice_update (c := c.setConflict conflict) o.conflicted r.conflicted.remote hop rfl rfl hown,
      slice_setConflict hrow, hkey]
    split <;> rfl
  · intro id other hother
    exact hnone id other (slice_conflicts_iff.mp hother).1

theorem ensures_failOutbox {draw operation : Uuid} {code : SyncCode} {evidence : Event}
    {Q : Option OutboxState → Cache → Prop} (hsame : ∀ c', c'.view = c.view → Q none c')
    (hqueue : ∀ reply key c', c.MovesAt key .queue c' → Q reply c')
    (hconflict : code = .revisionConflict → ∀ key c',
      c.MovesAt key (.conflict operation evidence) c' → Q (some .conflict) c') :
    Ensures (failOutbox b draw now operation fence code evidence) c Q := by
  unfold failOutbox
  simp only [ensures_bind, ensures_get]
  split
  case h_1 => exact ensures_pure.mpr (hsame c rfl)
  case h_2 o ho =>
    have hid : o.operationId = operation := Keyed.lookup_key ho
    subst hid
    simp only [ensures_bind]
    refine ensures_assertAccess ?_
    simp only [ensures_modify]
    have hsameView : c.view = c.ensureCheckpoint.view := view_ensureCheckpoint.symm
    split
    case h_1 => exact ensures_pure.mpr (hsame _ view_ensureCheckpoint)
    case h_2 r hr =>
      have hown : r.key = o.key := Keyed.lookup_key hr
      have hop : c.ensureCheckpoint.outbox.lookup o.operationId = some o := ho
      split
      case isTrue => exact ensures_pure.mpr (hsame _ view_ensureCheckpoint)
      case isFalse hheld =>
        obtain ⟨hflight, hrevision⟩ := Outbox.held_eq (eq_true_of_ne_false hheld)
        split
        case isTrue hcode =>
          simp only [ensures_bind, ensures_raiseIf, ensures_modify]
          intro hfree
          obtain ⟨hnew, hnone⟩ := not_or.mp hfree
          refine ensures_applyRecord (ensures_pure.mpr (hconflict hcode o.key _ ?_))
          refine Cache.MovesAt.congr (movesAt_conflict ⟨draw, o.key, o.operationId, evidence, _, now⟩
            hop hr hflight hrevision rfl rfl rfl ?_ ?_) hsameView rfl
          · exact Option.not_isSome_iff_eq_none.mp hnew
          · intro id other hother hoperation hopen
            exact hnone (List.any_eq_true.mpr
              ⟨other, Keyed.mem_of_lookup hother, decide_eq_true ⟨hoperation, hopen⟩⟩)
        case isFalse =>
          have hlive := OutboxState.live_of_inFlight hflight
          split
          case isTrue =>
            simp only [ensures_bind]
            refine ensures_applyRecord ?_
            simp only [ensures_modify, ensures_pure]
            refine hqueue _ o.key _ (Cache.MovesAt.congr (movesAt_update (o.failed now .blocked)
              r.blocked.remote hop rfl rfl hown (.block (slice_ops_self hop) hlive hr))
                hsameView rfl)
          case isFalse =>
            simp only [ensures_bind, ensures_modify, ensures_pure]
            have hretry := movesAt_operation (o.failed now .unknown) hop rfl rfl
              (.retry (slice_ops_self hop) hflight)
            refine hqueue _ o.key _ (hretry.congr hsameView ?_)
            split
            · exact view_pause
            · rfl

/-! ## The feed -/

theorem Cache.Writes.position (h : c.Writes key r c') : c'.position = c.position :=
  Cache.position_congr h.checkpoint

theorem Cache.Writes.movesAt (h : c.Writes key r c') (hseq : e.seq = some seq)
    (happlies : Applies key e (c.records.lookup key) r) : c.MovesAt key (.feed seq e) c' := by
  refine ⟨?_, fun k hk => h.slice_ne hk, h.position⟩
  rw [h.slice_self]
  exact .feed hseq happlies

/-- The event answers the open write of its record. -/
theorem ensures_answer {Q : Unit → Cache → Prop} (hokey : o.key = key)
    (htidy : (c.slice key).Tidy key n) (hseq : e.seq = some seq) (hkey : e.key = some key)
    (hop : c.outbox.lookup o.operationId = some o) (hr : c.records.lookup key = some r)
    (hflight : o.state.inFlight = true) (hsent : o.firstAttemptAt.isSome = true)
    (hrevision : o.queuedLocalRevision = r.localRevision)
    (hoperation : e.operationId = some o.operationId)
    (h : ∀ c', c.MovesAt key (.feed seq e) c' → Q () c') :
    Ensures (do applyCleanEvent b e; drainDeferred b now key)
      ((c.setOperation o.acknowledged).setRecord ({ r with state := .clean } : Record).remote) Q := by
  subst hokey
  have hown : r.key = o.key := Keyed.lookup_key hr
  have hslice := fun k => slice_update (k := k) o.acknowledged
    ({ r with state := .clean } : Record).remote hop rfl rfl hown
  have hself := (hslice o.key).trans (if_pos rfl)
  simp only [ensures_bind]
  refine ensures_applyCleanEvent fun key' r' c' happlies hwrites => ?_
  cases hkey.symm.trans happlies.event_key
  rw [lookup_setRecord (r := ({ r with state := .clean } : Record).remote) hown] at happlies
  have hself' : c'.slice o.key = ((c.slice o.key).setOperation o.acknowledged).setRecord r' := by
    rw [hwrites.slice_self, hself]
    rfl
  have hdrains : (((c.slice o.key).setOperation o.acknowledged).setRecord r').Tidy o.key n :=
    (htidy.setOperation _).setRecord _
  rw [← hself'] at hdrains
  refine ensures_drainDeferred hwrites.record hdrains ?_
  intro c'' r'' events hwaiting hall hdrained hframe hcheckpoint
  refine h c'' ⟨?_, ?_, ?_⟩
  · rw [hself'] at hwaiting hdrained
    rw [hdrained]
    exact .answer hseq (slice_ops_self hop) hflight hsent hr hrevision hoperation happlies hwaiting
      hall
  · intro k hk
    rw [hframe k hk, hwrites.slice_ne hk, hslice, if_neg (Ne.symm hk)]
  · exact (Cache.position_congr hcheckpoint).trans hwrites.position

/-- No event beyond the position has been set aside. -/
theorem deferred_lookup_eq_none (htidy : ∀ key, (c.slice key).Tidy key n) (hnext : n < seq) :
    c.deferred.lookup seq = none := by
  cases hd : c.deferred.lookup seq with
  | none => rfl
  | some d =>
    obtain ⟨_, _, hle⟩ := (htidy d.key).deferred seq d (slice_deferred_iff.mpr ⟨hd, rfl⟩)
    omega

/-- An event of the feed moves its record. -/
theorem ensures_feedEvent (htidy : ∀ key, (c.slice key).Tidy key n) (hseq : e.seq = some seq)
    (hnext : n < seq) (h : ∀ applied key c', c.MovesAt key (.feed seq e) c' → Q applied c') :
    Ensures (feedEvent b now seq e) c Q := by
  unfold feedEvent
  simp only [ensures_bind, ensures_get]
  split
  case h_1 =>
    simp only [ensures_bind, ensures_pure]
    exact ensures_applyCleanEvent fun key r c' happlies hwrites =>
      h true key c' (hwrites.movesAt hseq happlies)
  case h_2 r hfound =>
    obtain ⟨key, hkey, hr⟩ := Option.bind_eq_some_iff.mp hfound
    have hown : r.key = key := Keyed.lookup_key hr
    subst hown
    split
    case isTrue =>
      simp only [ensures_bind, ensures_pure]
      exact ensures_applyCleanEvent fun key r c' happlies hwrites =>
        h true key c' (hwrites.movesAt hseq happlies)
    case isFalse hopen =>
      split
      case h_1 o ho =>
        obtain ⟨hopened, hanswered⟩ := Option.filter_eq_some_iff.mp ho
        obtain ⟨hfind, _⟩ := openOperation_eq_some hopened
        obtain ⟨hop, hokey⟩ := slice_ops_iff.mp hfind
        unfold Outbox.answeredBy at hanswered
        simp only [Bool.and_eq_true, decide_eq_true_eq] at hanswered
        obtain ⟨⟨⟨hflight, hsent⟩, hoperation⟩, hrevision⟩ := hanswered
        simp only [ensures_bind, ensures_modify]
        refine ensures_applyRecord ?_
        have hanswer : Ensures (do applyCleanEvent b e; drainDeferred b now r.key)
            ((c.setOperation o.acknowledged).setRecord ({ r with state := .clean } : Record).remote)
            fun _ c' => Q true c' :=
          ensures_answer hokey (htidy r.key) hseq hkey hop hr hflight hsent hrevision hoperation
            fun c' hmoves => h true r.key c' hmoves
        simp only [ensures_bind, ensures_pure] at hanswer ⊢
        exact hanswer
      case h_2 =>
        simp only [ensures_bind, defer, ensures_modify, ensures_pure]
        have hnone := deferred_lookup_eq_none htidy hnext
        rw [hnone]
        have hrow : ∀ old, c.deferred.lookup seq = some old → old.key = r.key := by
          intro old hold
          cases hnone.symm.trans hold
        exact h false r.key _ (.of_slice _
          (fun _ => slice_setDeferred (d := ⟨seq, r.key, e, none⟩) hrow) rfl
          (.defer hkey hseq hr (eq_false_of_ne_true hopen) (Keyed.part_eq_none hnone)))

end Queue

/-! ## Pages and snapshots -/

theorem Cache.MovesAt.transition {cause : Cause} {n' : Int} (h : c.MovesAt key cause c')
    (hadvances : cause.Advances n n') : Transition (.move key cause) ⟨n, c.slice⟩ ⟨n', c'.slice⟩ := by
  have hslices : c'.slice = Function.update c.slice key (c'.slice key) := by
    funext k
    by_cases hk : k = key
    · subst hk
      rw [Function.update_self]
    · rw [Function.update_of_ne hk]
      exact h.frame k hk
  rw [hslices]
  exact .move hadvances h.move

/-- The acts of a page. -/
def Feeds (page : List Event) (act : Act) : Prop :=
  ∃ key seq, ∃ e ∈ page, act = .move key (.feed seq e)

/-- The loop of `apply_changes/3` feeds the events one after the other. -/
theorem ensures_consumeEvents {page : List Event} {next : Int} :
    ∀ (events : List Event) (c : Cache) (n : Int) (tally : Tally), (∀ e ∈ events, e ∈ page) →
      View.Tidy ⟨n, c.slice⟩ →
      Ensures (consumeEvents b now next n tally events) c fun result c' =>
        Path (Feeds page) ⟨n, c.slice⟩ ⟨result.1, c'.slice⟩
  | [], _, _, _, _, _ => ensures_pure.mpr .refl
  | e :: rest, c, n, tally, hpage, htidy => by
    have hrest : ∀ e' ∈ rest, e' ∈ page := fun e' he' => hpage e' (List.mem_cons_of_mem _ he')
    unfold consumeEvents consumeEvent
    simp only [ensures_bind, ensures_read]
    intro _
    split
    case h_1 => exact ensures_throw.mpr trivial
    case h_2 seq hseq =>
      simp only [ensures_bind, ensures_raiseIf]
      intro _
      split
      case isTrue => exact ensures_pure.mpr (ensures_consumeEvents rest c n tally hrest htidy)
      case isFalse hnew =>
        simp only [ensures_bind, ensures_raiseIf, not_not, ensures_pure]
        intro hnext
        refine ensures_feedEvent htidy hseq (not_le.mp hnew) ?_
        intro applied key c' hmoves
        have htransition : Transition (.move key (.feed seq e)) ⟨n, c.slice⟩ ⟨seq, c'.slice⟩ :=
          hmoves.transition ⟨hnext, rfl⟩
        refine (ensures_consumeEvents rest c' seq _ hrest (htransition.tidy htidy)).mono ?_
        intro result c'' hpath
        refine Relation.ReflTransGen.head ⟨_, ?_, htransition⟩ hpath
        exact ⟨key, seq, e, hpage e List.mem_cons_self, rfl⟩

/-- The position that a cursor stands for, if it is one of the feed behind the binding. -/
def Binding.counter? (b : Binding) : Option Cursor → Option Int
  | none => some 0
  | some (.sync known counter) => if known = b.sourceBindingId.getD b.id then some counter else none
  | some (.other "") => some 0
  | some _ => none

theorem ensures_cacheCursorCounter {s : σ} {Q : Int → σ → Prop}
    (h : ∀ n, b.counter? cursor = some n → Q n s) : Ensures (cacheCursorCounter b cursor) s Q := by
  unfold cacheCursorCounter cursorCounter
  split
  case h_1 => exact ensures_pure.mpr (h 0 rfl)
  case h_2 counter =>
    split
    case isTrue hknown => exact ensures_pure.mpr (h counter (if_pos hknown))
    case isFalse => exact ensures_throw.mpr trivial
  case h_3 => exact ensures_pure.mpr (h 0 rfl)
  case h_4 => exact ensures_throw.mpr trivial

theorem ensures_applyChanges {events : List Event} {nextCursor : Option Cursor}
    {Q : Option Tally → Cache → Prop} (htidy : c.view.Tidy)
    (hsame : ∀ c', c'.view = c.view → Q none c')
    (h : ∀ tally c', b.counter? nextCursor = some c'.position →
      Path (Feeds events) c.view c'.view → Q (some tally) c') :
    Ensures (applyChanges b now events nextCursor) c Q := by
  unfold applyChanges
  simp only [ensures_bind]
  refine ensures_assertAccess ?_
  simp only [ensures_raiseIf]
  intro _
  refine ensures_cacheCursorCounter fun next hnext => ?_
  simp only [ensures_modify, ensures_get]
  split
  case isTrue => exact ensures_pure.mpr (hsame _ view_ensureCheckpoint)
  case isFalse =>
    simp only [ensures_bind, ensures_raiseIf, ensures_modify, ensures_pure, not_not]
    have hview : c.view =
        ⟨(c.ensureCheckpoint.checkpoint.getD {}).lastEventId, c.ensureCheckpoint.slice⟩ := by
      rw [← view_ensureCheckpoint]
      rfl
    rw [hview] at htidy h
    refine (ensures_consumeEvents events _ _ {} (fun _ he => he) htidy).mono ?_
    intro result c' hpath hresult
    subst hresult
    exact h result.2 _ hnext hpath

/-- The rows of a snapshot, each applied to the record of its key. -/
theorem ensures_applyRows :
    ∀ (rows : List Event) (c : Cache), (rows.map Event.key).Nodup →
      (∀ c', c'.outbox = c.outbox → c'.deferred = c.deferred → c'.conflicts = c.conflicts →
        (∀ key, (∃ e ∈ rows, ∃ r, (∀ n, e.seq = some n → n ≤ seq) ∧
            Applies key e (c.records.lookup key) r ∧ c'.records.lookup key = some r) ∨
          (some key ∉ rows.map Event.key ∧ c'.records.lookup key = c.records.lookup key)) →
        Q () c') →
      Ensures (applyRows b seq rows) c Q
  | [], c, _, h => ensures_pure.mpr (h c rfl rfl rfl fun _ => .inr ⟨List.not_mem_nil, rfl⟩)
  | e :: rest, c, hnodup, h => by
    obtain ⟨hfresh, hrest⟩ := List.nodup_cons.mp hnodup
    unfold applyRows
    simp only [ensures_bind, ensures_read, ensures_raiseIf]
    intro _ hbound
    have hbound : ∀ n, e.seq = some n → n ≤ seq := by
      intro n hn
      have hget : e.eventId.get? = some n := hn
      rw [hget] at hbound
      simpa using hbound
    refine ensures_applyCleanEvent fun key₀ r₀ c₁ happlies hwrites => ?_
    refine ensures_applyRows rest c₁ hrest ?_
    intro c' houtbox hdeferred hconflicts hrecords
    refine h c' (houtbox.trans hwrites.outbox) (hdeferred.trans hwrites.deferred)
      (hconflicts.trans hwrites.conflicts) fun key => ?_
    rcases hrecords key with ⟨e', he', r, hle, happlies', hr⟩ | ⟨hmissing, hsame⟩
    · -- a later row has another key
      have hne : key ≠ key₀ := by
        rintro rfl
        refine hfresh (List.mem_map.mpr ⟨e', he', ?_⟩)
        rw [happlies'.event_key, happlies.event_key]
      rw [hwrites.others key hne] at happlies'
      exact .inl ⟨e', List.mem_cons_of_mem _ he', r, hle, happlies', hr⟩
    · by_cases hkey : key = key₀
      · subst hkey
        exact .inl ⟨e, List.mem_cons_self, r₀, hbound, happlies, hsame.trans hwrites.record⟩
      · refine .inr ⟨?_, hsame.trans (hwrites.others key hkey)⟩
        rw [List.map_cons, happlies.event_key]
        intro hmem
        rcases List.mem_cons.mp hmem with heq | hin
        · exact hkey (Option.some.inj heq)
        · exact hmissing hin

theorem slice_dropMissing :
    (c.dropMissing rows seq).slice key =
      { c.slice key with
        record := (c.records.lookup key).map fun r =>
          if r.deleted = false ∧ some key ∉ rows.map Event.key then r.dropped seq else r } := by
  have hrecord : (c.dropMissing rows seq).records.lookup key = (c.records.lookup key).map fun r =>
      if r.deleted = false ∧ some key ∉ rows.map Event.key then r.dropped seq else r := by
    unfold Cache.dropMissing
    rw [Keyed.lookup_mapRows]
    refine Option.map_congr fun r hr => ?_
    have hown : r.key = key := Keyed.lookup_key hr
    rw [hown]
  unfold Cache.slice
  rw [hrecord]
  rfl

/-- A record that the snapshot does not have is dropped, unless it is deleted already. -/
theorem published_missing (hmissing : some key ∉ rows.map Event.key) :
    Published rows seq key (c.slice key)
      { c.slice key with
        record := (c.records.lookup key).map fun r =>
          if r.deleted = false ∧ some key ∉ rows.map Event.key then r.dropped seq else r } := by
  cases hr : c.records.lookup key with
  | none =>
    have hself : c.slice key = { c.slice key with record := none } := Slice.ext hr rfl rfl rfl
    rw [Option.map_none, ← hself]
    refine .keep hmissing ?_
    intro r hsome
    cases hr.symm.trans hsome
  | some r =>
    rw [Option.map_some]
    by_cases hdeleted : r.deleted = false
    · rw [if_pos ⟨hdeleted, hmissing⟩]
      exact .drop hmissing hr hdeleted
    · have hself : c.slice key = { c.slice key with record := some r } :=
        Slice.ext hr rfl rfl rfl
      rw [if_neg fun hdrop => hdeleted hdrop.1, ← hself]
      refine .keep hmissing ?_
      intro r' hsome
      cases hr.symm.trans hsome
      exact eq_true_of_ne_false hdeleted

theorem ensures_publishSnapshot {snapshotId : String}
    (h : ∀ seq c', b.counter? cursor = some seq → Transition (.publish rows seq) c.view c'.view →
      Q () c') : Ensures (publishSnapshot b now rows cursor snapshotId) c Q := by
  unfold publishSnapshot
  simp only [ensures_bind]
  refine ensures_assertAccess ?_
  simp only [ensures_raiseIf]
  intro _
  refine ensures_cacheCursorCounter fun seq hseq => ?_
  simp only [ensures_get, ensures_modify, not_lt, not_not]
  intro hposition hsettled hnodup
  refine ensures_applyRows rows c hnodup ?_
  intro c' houtbox hdeferred hconflicts hrecords
  refine h seq _ hseq (.publish hposition ?_ ?_)
  · intro key r hr
    by_contra hopen
    refine hsettled (List.any_eq_true.mpr ⟨r, Keyed.mem_of_lookup hr, ?_⟩)
    simpa using hopen
  · intro key
    show Published rows seq key (c.slice key) ((c'.dropMissing rows seq).slice key)
    have hslice : c'.slice key = { c.slice key with record := c'.records.lookup key } := by
      unfold Cache.slice
      rw [houtbox, hdeferred, hconflicts]
    rw [slice_dropMissing, hslice]
    rcases hrecords key with ⟨e, he, r, hle, happlies, hr⟩ | ⟨hmissing, hsame⟩
    · have hin : some key ∈ rows.map Event.key :=
        List.mem_map.mpr ⟨e, he, happlies.event_key⟩
      rw [hr, Option.map_some, if_neg fun hdrop => hdrop.2 hin]
      exact .row he hle happlies
    · rw [hsame]
      exact published_missing hmissing

/-! ## Conflicts -/

/-- The newest observation is one of them, and none has a greater number. -/
theorem ensures_latest {s : σ} {Q : Event → σ → Prop} :
    ∀ (es : List Event) (best : Event),
      (∀ e ∈ best :: es, (∀ e' ∈ best :: es, e'.seq.getD 0 ≤ e.seq.getD 0) → Q e s) →
      Ensures (latest best es) s Q
  | [], best, h => by
    refine ensures_pure.mpr (h best List.mem_cons_self ?_)
    intro e' he'
    rw [List.mem_singleton.mp he']
  | e :: es, best, h => by
    unfold latest
    simp only [ensures_bind, ensures_read]
    intro _ _
    refine ensures_latest es _ ?_
    intro newest hmem hmax
    have hbest := hmax _ List.mem_cons_self
    refine h newest ?_ ?_
    · rcases List.mem_cons.mp hmem with rfl | hin
      · split
        · exact List.mem_cons_of_mem _ List.mem_cons_self
        · exact List.mem_cons_self
      · exact List.mem_cons_of_mem _ (List.mem_cons_of_mem _ hin)
    · intro e' he'
      -- the one that was left behind is not greater than the one that was kept
      have hkept : best.seq.getD 0 ≤ newest.seq.getD 0 ∧ e.seq.getD 0 ≤ newest.seq.getD 0 := by
        split at hbest
        case isTrue hlt => exact ⟨(le_of_lt hlt).trans hbest, hbest⟩
        case isFalse hge => exact ⟨hbest, (not_lt.mp hge).trans hbest⟩
      rcases List.mem_cons.mp he' with rfl | hin
      · exact hkept.1
      · rcases List.mem_cons.mp hin with rfl | hin
        · exact hkept.2
        · exact hmax e' (List.mem_cons_of_mem _ hin)

section Resolve

variable {o : Outbox} {conflict : Conflict}

/-- The tables after the first half of `resolve/3`. -/
def Cache.resolving (o : Outbox) (shown : Record) (conflict : Conflict) (now : Int) (c : Cache) :
    Cache :=
  (((c.setOperation o.resolved).setRecord shown).markApplied conflict.key now).setConflict
    { conflict with state := .resolved }

theorem slice_resolving (shown : Record) (hop : c.outbox.lookup conflict.operationId = some o)
    (hkey : o.key = conflict.key) (hr : shown.key = conflict.key)
    (hconflict : c.conflicts.lookup conflict.id = some conflict) {k : Json} :
    (c.resolving o shown conflict now).slice k =
      if conflict.key = k then ((c.slice k).resolved o conflict now).setRecord shown
      else c.slice k := by
  have hid : o.operationId = conflict.operationId := Keyed.lookup_key hop
  have hop : c.outbox.lookup o.operationId = some o := by
    rw [hid]
    exact hop
  have hrow : ∀ row, (((c.setOperation o.resolved).setRecord shown).markApplied conflict.key
      now).conflicts.lookup ({ conflict with state := .resolved } : Conflict).id = some row →
      row.key = ({ conflict with state := .resolved } : Conflict).key := by
    intro row hrow
    cases hconflict.symm.trans hrow
    rfl
  unfold Cache.resolving
  rw [slice_setConflict hrow, slice_markApplied,
    slice_update o.resolved shown hop rfl rfl (hr.trans hkey.symm), hkey]
  split <;> rfl

/-- The newest version of the source that is known when a conflict is resolved. -/
structure Newest (c : Cache) (conflict : Conflict) (o : Outbox) (r : Record) (e : Event) :
    Prop where
  record : c.records.lookup conflict.key = some r
  operation : c.outbox.lookup conflict.operationId = some o
  op_key : o.key = conflict.key
  row : c.conflicts.lookup conflict.id = some conflict
  opened : conflict.state = .open
  known : e ∈ conflict.remoteEvidence :: (c.unapplied conflict.key).map Deferred.event
  max : ∀ e' ∈ conflict.remoteEvidence :: (c.unapplied conflict.key).map Deferred.event,
    e'.seq.getD 0 ≤ e.seq.getD 0
  revision : e.revision.isSome = true

variable (h : Newest c conflict o r e)

include h

theorem Newest.shown_key : (r.shows e (e.seq.getD r.sourceCounter)).key = conflict.key := by
  have hown : r.key = conflict.key := Keyed.lookup_key h.record
  exact hown

theorem Newest.slice_conflicts : (c.slice conflict.key).conflicts conflict.id = some conflict :=
  slice_conflicts_iff.mpr ⟨h.row, rfl⟩

theorem Newest.slice_ops : (c.slice conflict.key).ops conflict.operationId = some o :=
  slice_ops_iff.mpr ⟨h.operation, h.op_key⟩

theorem Newest.slice {k : Json} :
    (c.resolving o (r.shows e (e.seq.getD r.sourceCounter)) conflict now).slice k =
      if conflict.key = k then ((c.slice k).resolved o conflict now).setRecord
        (r.shows e (e.seq.getD r.sourceCounter))
      else c.slice k :=
  slice_resolving _ h.operation h.op_key h.shown_key h.row

/-- The newest version is accepted. -/
theorem Newest.accept {draw : Uuid} : c.MovesAt conflict.key (.resolve draw)
    (c.resolving o (r.shows e (e.seq.getD r.sourceCounter)) conflict now) := by
  exact .of_slice (fun s => (s.resolved o conflict now).setRecord _) (fun _ => h.slice) rfl
    (.accept h.slice_conflicts h.opened h.slice_ops h.record (fun _ => mem_unapplied_events)
      h.known h.max h.revision)

/-- The local version is queued again over the newest one. -/
theorem Newest.requeue (o' : Outbox) (hkey : o'.key = conflict.key) (hstate : o'.state = .pending)
    (hunsent : o'.firstAttemptAt = none) (hqueued : o'.queuedLocalRevision = r.localRevision + 2)
    (hprecondition : o'.precondition = .revision e.revision) (hkind : o'.operation ≠ .create)
    (hnew : (c.resolving o (r.shows e (e.seq.getD r.sourceCounter)) conflict
      now).outbox.lookup o'.operationId = none)
    (hidle : (c.resolving o (r.shows e (e.seq.getD r.sourceCounter)) conflict now).openOperation
      conflict.key = none) :
    c.MovesAt conflict.key (.resolve o'.operationId)
      (((c.resolving o (r.shows e (e.seq.getD r.sourceCounter)) conflict now).setRecord
        ((r.shows e (e.seq.getD r.sourceCounter)).requeued r.payload
          r.deleted).remote).setOperation o') := by
  have hrow : ∀ row, ((c.resolving o (r.shows e (e.seq.getD r.sourceCounter)) conflict
      now).setRecord ((r.shows e (e.seq.getD r.sourceCounter)).requeued r.payload
        r.deleted).remote).outbox.lookup o'.operationId = some row → row.key = o'.key := by
    intro row hrow
    cases hnew.symm.trans hrow
  have hown : ((r.shows e (e.seq.getD r.sourceCounter)).requeued r.payload
      r.deleted).remote.key = conflict.key := h.shown_key
  refine ⟨?_, ?_, rfl⟩
  · rw [slice_setOperation hrow, if_pos hkey, slice_setRecord, if_pos hown, h.slice, if_pos rfl]
    have hidle := openOperation_eq_none.mp hidle
    rw [h.slice, if_pos rfl] at hidle
    refine .requeue h.slice_conflicts h.opened h.slice_ops h.record
      (fun _ => mem_unapplied_events) h.known h.max h.revision ?_ hidle hkey hstate hunsent hqueued
      hprecondition hkind
    -- the id is new: it is not the resolved write's, and no other row has it
    cases hop : (c.slice conflict.key).ops o'.operationId with
    | none => rfl
    | some =>
      have hlookup : (c.outbox.insert o.resolved).lookup o'.operationId = none := hnew
      rw [Keyed.lookup_insert, (slice_ops_iff.mp hop).1] at hlookup
      split at hlookup <;> cases hlookup
  · intro k hk
    rw [slice_setOperation hrow, if_neg (hkey ▸ Ne.symm hk), slice_setRecord,
      if_neg (hown ▸ Ne.symm hk), h.slice, if_neg (Ne.symm hk)]

omit h

theorem ensures_resolve {draw id : Uuid} {strategy : Option Strategy} {expected : Option Int} {Q : Resolution → Cache → Prop} (htidy : ∀ key, (c.slice key).Tidy key n)
    (h : ∀ reply c' conflict r, c.conflicts.lookup id = some conflict →
      c.records.lookup conflict.key = some r → expected = some r.localRevision →
      c.MovesAt conflict.key (.resolve draw) c' → Q reply c') :
    Ensures (resolve b draw now id strategy expected) c Q := by
  unfold resolve
  simp only [ensures_bind, ensures_get]
  split
  case h_1 => exact ensures_throw.mpr trivial
  case h_2 conflict hconflict =>
    simp only [ensures_bind]
    refine ensures_assertAccess ?_
    split
    case h_2 => exact ensures_throw.mpr trivial
    case h_1 r o hr ho =>
      have hid : conflict.id = id := Keyed.lookup_key hconflict
      subst hid
      -- the write of the conflict is one of the same key
      obtain ⟨o', ho'⟩ := (htidy conflict.key).conflicts conflict.id conflict
        (slice_conflicts_iff.mpr ⟨hconflict, rfl⟩)
      obtain ⟨hop, hokey⟩ := slice_ops_iff.mp ho'
      cases ho.symm.trans hop
      simp only [ensures_bind, ensures_raiseIf]
      intro hvalid _
      simp only [not_or, not_not] at hvalid
      obtain ⟨hopen, hexpected⟩ := hvalid
      split
      case h_1 => exact ensures_throw.mpr trivial
      case h_2 =>
        simp only [ensures_bind]
        refine ensures_latest _ _ fun e he hmax => ?_
        simp only [ensures_raiseIf, ensures_read, ensures_isDeleted, ensures_modify]
        intro hrevision _ _
        have hnewest : Newest c conflict o r e :=
          ⟨hr, ho, hokey, hconflict, hopen, he, hmax, Option.isSome_iff_ne_none.mpr hrevision⟩
        refine ensures_applyRecord ?_
        split
        case h_1 =>
          exact ensures_pure.mpr (h _ _ conflict r hconflict hr hexpected.symm hnewest.accept)
        case h_2 =>
          simp only [ensures_bind]
          refine ensures_applyRecord (ensures_insertOperation fun hnew hidle => ?_)
          refine ensures_pure.mpr (h _ _ conflict r hconflict hr hexpected.symm ?_)
          refine hnewest.requeue _ rfl rfl rfl ?_ rfl ?_ hnew hidle
          · exact Int.add_assoc r.localRevision 1 1
          · show (if r.deleted = true then Operation.delete else Operation.update) ≠ .create
            split <;> exact fun heq => by cases heq

end Resolve

/-! ## Calls -/

theorem ensures_pauseBinding (h : Q () c.pause) : Ensures (pauseBinding b) c Q := by
  unfold pauseBinding
  simp only [ensures_bind, ensures_modify]
  exact ensures_assertAccess h

theorem ensures_resumeBinding (h : ∀ c', Transition .resume c.view c'.view → Q () c') :
    Ensures (resumeBinding b now) c Q := by
  unfold resumeBinding
  simp only [ensures_bind, ensures_modify]
  refine ensures_assertAccess (h _ ?_)
  have hview : ∀ c' : Cache, c'.position = c.position →
      (∀ key, c'.slice key = (c.slice key).reschedule now) → Transition .resume c.view c'.view := by
    intro c' hposition hslices
    have heq : c'.view = ⟨c.view.position, fun key => (c.view.slices key).reschedule now⟩ :=
      View.ext hposition (funext hslices)
    rw [heq]
    exact .resume
  refine hview _ ?_ ?_
  · unfold Cache.position
    cases c.checkpoint with
    | none => rfl
    | some =>
      simp only [Option.map_some, Option.getD_some]
      split <;> rfl
  · intro key
    refine Slice.ext rfl ?_ rfl rfl
    exact Keyed.part_mapRows (fun o => by split <;> rfl) fun o => by split <;> rfl

/-- What a call may do to the records. -/
def Call.admits (b : Binding) : Call → Act → Prop
  | .put draw _ key _ _, act => act = .move key (.client draw)
  | .remove draw _ key _, act => act = .move key (.client draw)
  | .writeRows _ changes, act => ∃ key, ∃ change ∈ changes, act = .move key (.client change.2)
  | .resolve draw _ _ _ _, act => ∃ key, act = .move key (.resolve draw)
  | .claim _ _, act => ∃ key, act = .move key .queue
  | .ack _ operation _ result, act => ∃ key, act = .move key (.outcome operation result)
  | .fail _ _ operation _ code evidence, act => ∃ key, act = .move key .queue ∨
      (code = .revisionConflict ∧ act = .move key (.conflict operation evidence))
  | .apply _ events _, act => Feeds events act
  | .publish _ rows cursor _, act => ∃ seq, b.counter? cursor = some seq ∧ act = .publish rows seq
  | .pause, _ => False
  | .resume _, act => act = .resume

theorem Cache.MovesAt.path {cause : Cause} {admits : Act → Prop} (h : c.MovesAt key cause c')
    (hadvances : cause.Advances c.position c'.position) (hadmits : admits (.move key cause)) :
    Path admits c.view c'.view :=
  .single ⟨_, hadmits, h.transition hadvances⟩

/-- A call that commits is a path of what it admits. -/
theorem Call.ensures_path {call : Call} (htidy : c.view.Tidy) :
    Ensures (call.run b) c fun _ c' => Path (call.admits b) c.view c'.view := by
  cases call with
  | put => exact ensures_map.mpr (ensures_put fun _ _ _ hmoves _ => hmoves.path hmoves.position rfl)
  | remove =>
    exact ensures_map.mpr (ensures_remove fun _ _ _ hmoves _ => hmoves.path hmoves.position rfl)
  | writeRows _ changes =>
    refine ensures_map.mpr (ensures_writeRows changes _ ?_ changes c
      (fun _ h => h) .refl)
    intro c₁ c₂ key change hchange hpath hmoves _
    exact hpath.trans (hmoves.path hmoves.position ⟨key, change, hchange, rfl⟩)
  | resolve =>
    exact ensures_map.mpr (ensures_resolve htidy fun _ _ _ _ _ _ _ hmoves =>
      hmoves.path hmoves.position ⟨_, rfl⟩)
  | claim now leaseSeconds =>
    refine ensures_map.mpr ((ensures_claimOutbox
      (fun c' => Path (Call.admits b (.claim now leaseSeconds)) c.view c'.view) ?_ .refl).mono
        fun _ _ h => h.1)
    intro c₁ c₂ key hpath hmoves _
    exact hpath.trans (hmoves.path hmoves.position ⟨key, rfl⟩)
  | ack =>
    exact ensures_map.mpr (ensures_ackOutbox htidy .refl fun key _ hmoves =>
      hmoves.path hmoves.position ⟨key, rfl⟩)
  | fail =>
    refine ensures_map.mpr (ensures_failOutbox ?_ ?_ ?_)
    · intro c' hview
      rw [hview]
      exact .refl
    · intro _ key _ hmoves
      exact hmoves.path hmoves.position ⟨key, .inl rfl⟩
    · intro hcode key _ hmoves
      exact hmoves.path hmoves.position ⟨key, .inr ⟨hcode, rfl⟩⟩
  | apply =>
    refine ensures_map.mpr (ensures_applyChanges htidy ?_ fun _ _ _ hpath => hpath)
    intro c' hview
    rw [hview]
    exact .refl
  | publish =>
    exact ensures_map.mpr (ensures_publishSnapshot fun seq _ hseq htransition =>
      .single ⟨_, ⟨seq, hseq, rfl⟩, htransition⟩)
  | pause =>
    refine ensures_map.mpr (ensures_pauseBinding ?_)
    rw [view_pause]
    exact .refl
  | resume =>
    exact ensures_map.mpr (ensures_resumeBinding fun _ htransition => .single ⟨_, rfl, htransition⟩)

/-- A call as a step, whether it commits or raises. -/
theorem Cache.step_path {call : Call} {reply : Except Raised Reply} (htidy : c.view.Tidy)
    (h : c.step b call = some (c', reply)) : Path (call.admits b) c.view c'.view := by
  have hpath : Ensures (call.run b) c fun _ c' => Path (call.admits b) c.view c'.view :=
    Call.ensures_path htidy
  have hcommit := hpath.commit
    (R := fun (c c' : Cache) => Path (call.admits b) c.view c'.view) .refl
  rw [Option.some.inj h] at hcommit
  exact hcommit

/-- An empty cache is tidy. -/
theorem tidy_empty : ({} : Cache).view.Tidy := by
  intro key
  refine ⟨?_, ?_, ?_, ?_⟩
  · intro id o ho
    cases (slice_ops_iff.mp ho).1
  · intro id conflict hconflict
    cases (slice_conflicts_iff.mp hconflict).1
  · intro id conflict hconflict
    cases (slice_conflicts_iff.mp hconflict).1
  · intro id d hd
    cases (slice_deferred_iff.mp hd).1

/-- What every transition that a call admits keeps holds at the end of a run, if the rows
are tidy at its start. -/
theorem run_view_invariant {calls : List Call} {replies : List (Except Raised Reply)}
    (I : View → Prop)
    (hI : ∀ act v v', v.Tidy → Transition act v v' → I v → I v') (htidy : c.view.Tidy)
    (hc : I c.view) (h : Foundation.Runs.run (Cache.step b) c calls = some (c', replies)) :
    I c'.view := by
  have hboth := Foundation.Runs.run_invariant (fun c => c.view.Tidy ∧ I c.view) ?_ ⟨htidy, hc⟩ h
  · exact hboth.2
  intro c call c' reply ⟨htidy, hc⟩ hstep
  have hpath := Cache.step_path htidy hstep
  refine hpath.invariant (fun v => v.Tidy ∧ I v) ?_ ⟨htidy, hc⟩
  intro act v v' _ htransition ⟨hv, hIv⟩
  exact ⟨htransition.tidy hv, hI act v v' hv htransition hIv⟩

end NoizuMcp.Sync
