import NoizuMcp.Sync.Following
import NoizuMcp.Sync.Source

/-!
# The source as a log

The tables of the source are views of its change log: a record is the last event of its
key, a remembered operation has exactly one event, a snapshot holds the last events up to
its cursor. `Source.Sound` says this and that ids and revisions are among the uuids in
use; a mutation with a fresh revision keeps it and adds one event to the log.
-/

set_option autoImplicit false

namespace NoizuMcp.Sync

open Foundation (Keyed)

open Foundation.Tx

open Protocol (Json)

variable {b : Binding} {src : Source} {known : List Uuid} {key : Json} {e : Event}
  {operation draw : Uuid} {request : Request} {mutation : Mutation} {m : Int}

/-- The events by their numbers. -/
def Source.log (src : Source) : Log := fun m =>
  (src.changes.find? fun change => change.counter = m).map Change.event

/-- The tables of a source agree: the records are the last events of the log, and every number,
revision and operation is there once. -/
structure Source.Sound (b : Binding) (known : List Uuid) (src : Source) : Prop where
  numbered : src.log.Numbered src.counter
  listed : ∀ change ∈ src.changes, src.log change.counter = some change.event
  current : ∀ key row, src.records.lookup key = some row →
    ∃ e, src.log.At key row.counter e ∧ row.row.Same e
  latest : ∀ key m e, src.log.At key m e →
    ∃ row, src.records.lookup key = some row ∧ m ≤ row.counter
  remembered : ∀ id row, src.operations.lookup id = some row →
    (∃ m, src.log m = some row.outcome) ∧ row.outcome.operationId = some id
  recalled : ∀ m e, src.log m = some e → ∃ id row, e.operationId = some id ∧
    src.operations.lookup id = some row ∧ row.outcome = e
  ids : ∀ m e id, src.log m = some e → e.operationId = some id → id ∈ known
  revisions : ∀ m e v, src.log m = some e → e.revision = some v → v ∈ known
  distinct : ∀ m m' e e', src.log m = some e → src.log m' = some e' → e.revision = e'.revision →
    m = m'
  snapshots : ∀ id snapshot, src.snapshots.lookup id = some snapshot → id ∈ known ∧
    ∃ seq : Nat, snapshot.changeCursor = .sync b.id seq ∧ seq ≤ src.counter ∧
      Captures src.log snapshot.rows seq

theorem sound_empty : Source.Sound b [] {} := by
  refine ⟨⟨?_, ?_, ?_⟩, ?_, ?_, ?_, ?_, ?_, ?_, ?_, ?_, ?_⟩
  · intro m e h
    cases h
  · intro m e h
    cases h
  · intro m e h
    cases h
  · intro change h
    cases h
  · intro key row h
    cases h
  · intro key m e h
    cases h.1
  · intro id row h
    cases h
  · intro m e h
    cases h
  · intro m e id h
    cases h
  · intro m e v h
    cases h
  · intro m m' e e' h
    cases h
  · intro id snapshot h
    cases h

/-! ## Mutations -/

variable {cursor : Option Cursor} {known' : List Uuid} {now : Int}

theorem ensures_cursorCounter {σ : Type} {s : σ} {binding : Uuid} {Q : Int → σ → Prop}
    (h : ∀ n, Q n s) : Ensures (cursorCounter binding cursor) s Q := by
  unfold cursorCounter
  split
  case h_1 => exact ensures_pure.mpr (h 0)
  case h_2 counter =>
    split
    case isTrue => exact ensures_pure.mpr (h counter)
    case isFalse => exact ensures_throw.mpr trivial
  case h_3 => exact ensures_pure.mpr (h 0)
  case h_4 => exact ensures_throw.mpr trivial

theorem raises_assertAccess {σ : Type} {s : σ} {write : Bool} {P : Raised → Prop}
    (hdenied : P Message.permissionDenied.raised)
    (hreadOnly : P Message.unsupportedConsistency.raised) : Raises (assertAccess b write) s P := by
  unfold assertAccess
  simp only [raises_bind, raises_raiseIf, ensures_raiseIf]
  exact ⟨fun _ => hdenied, fun _ _ => hreadOnly⟩

theorem ensures_sourceMutate {Q : Event → Source → Prop}
    (hprior : ∀ id row, request.operationId = some id → src.operations.lookup id = some row →
      row.request = request → Q row.outcome src)
    (hnew : ∀ id mutation, request.operationId = some id → request.key = some mutation.key →
      src.operations.lookup id = none →
      request.precondition.holds (src.records.lookup mutation.key) = true →
      Q (mutation.outcome id draw (src.counter + 1)) (src.mutated mutation id request draw)) :
    Ensures (sourceMutate b draw request) src Q := by
  unfold sourceMutate
  simp only [ensures_bind]
  refine ensures_assertAccess ?_
  simp only [ensures_raiseIf]
  intro _
  split
  case h_1 id key hid hkey =>
    simp only [ensures_bind, ensures_get]
    split
    case h_1 row hrow =>
      simp only [ensures_bind, ensures_raiseIf, ensures_pure, not_not]
      intro hsame
      exact hprior id row hid hrow hsame
    case h_2 hnone =>
      simp only [ensures_bind, ensures_raiseIf, ensures_modify, ensures_pure]
      intro hholds
      exact hnew id ⟨key, _, _⟩ hid hkey hnone (eq_true_of_ne_false hholds)
  case h_2 => exact ensures_throw.mpr trivial

/-- A revision conflict is raised only for an operation that is not remembered and whose
precondition does not hold, with the record that was found. -/
theorem raises_sourceMutate : Raises (sourceMutate b draw request) src fun e =>
    e.message = .revisionConflict → ∃ id key, request.operationId = some id ∧
      request.key = some key ∧ src.operations.lookup id = none ∧
      request.precondition.holds (src.records.lookup key) = false ∧
      e.detail = some (conflictDetail key (src.records.lookup key)) := by
  unfold sourceMutate
  rw [raises_bind]
  refine ⟨raises_assertAccess (by rintro ⟨⟩) (by rintro ⟨⟩), ensures_assertAccess ?_⟩
  simp only [raises_bind, raises_raiseIf, ensures_raiseIf]
  refine ⟨fun _ => by rintro ⟨⟩, fun _ => ?_⟩
  split
  case h_1 id key hid hkey =>
    simp only [raises_bind, raises_get, ensures_get, true_and]
    split
    case h_1 =>
      simp only [raises_bind, raises_raiseIf, raises_pure]
      exact ⟨fun _ => by rintro ⟨⟩, fun _ _ _ => trivial⟩
    case h_2 hnone =>
      simp only [raises_bind, raises_raiseIf, raises_modify, raises_pure]
      refine ⟨?_, fun _ _ _ => ⟨trivial, fun _ _ _ => trivial⟩⟩
      intro hfails _
      exact ⟨id, key, hid, hkey, hnone, hfails, rfl⟩
  case h_2 =>
    simp only [raises_throw]
    intro hmessage
    cases hmessage

section

variable (hs : src.Sound b known)

include hs

/-- An accepted mutation adds its event to the log. -/
theorem log_mutated :
    (src.mutated mutation operation request draw).log = Function.update src.log (src.counter + 1)
      (some (mutation.outcome operation draw (src.counter + 1))) := by
  have hend : src.log (src.counter + 1) = none := by
    cases h : src.log (src.counter + 1) with
    | none => rfl
    | some e =>
      have := (hs.numbered.range _ e h).2
      omega
  funext m
  unfold Source.log Source.mutated at *
  simp only [List.find?_append, Option.map_or]
  by_cases hm : m = src.counter + 1
  · subst hm
    simp [hend]
  · have hne : ¬ ((src.counter : Int) + 1 = m) := fun heq => hm heq.symm
    simp [hm, hne]

theorem Source.Sound.extends :
    src.log.Extends (src.mutated mutation operation request draw).log src.counter := by
  rw [log_mutated hs]
  constructor
  · intro m e h
    have hle := (hs.numbered.range m e h).2
    rw [Function.update_of_ne (by omega)]
    exact h
  · intro m e h
    by_cases hm : m = src.counter + 1
    · exact .inr hm
    · rw [Function.update_of_ne hm] at h
      exact .inl h

/-- An event of the longer log is an old one, or the outcome of the mutation. -/
theorem Source.Sound.event_cases
    (h : (src.mutated mutation operation request draw).log m = some e) : src.log m = some e ∨
      m = src.counter + 1 ∧ e = mutation.outcome operation draw (src.counter + 1) := by
  rw [log_mutated hs] at h
  by_cases hm : m = src.counter + 1
  · subst hm
    rw [Function.update_self] at h
    exact .inr ⟨rfl, (Option.some.inj h).symm⟩
  · rw [Function.update_of_ne hm] at h
    exact .inl h

theorem Source.Sound.log_new : (src.mutated mutation operation request draw).log (src.counter + 1) =
      some (mutation.outcome operation draw (src.counter + 1)) := by
  rw [log_mutated hs, Function.update_self]

theorem Source.Sound.mutated (hfresh : draw ∉ known)
    (hnone : src.operations.lookup operation = none) (hknown : ∀ id ∈ known, id ∈ known')
    (hdraw : draw ∈ known') (hid : operation ∈ known') :
    (src.mutated mutation operation request draw).Sound b known' := by
  have hext : src.log.Extends (src.mutated mutation operation request draw).log src.counter :=
    hs.extends
  have hnew : (src.mutated mutation operation request draw).log (src.counter + 1) =
      some (mutation.outcome operation draw (src.counter + 1)) := hs.log_new
  have hhead : ((src.mutated mutation operation request draw).counter : Int) = src.counter + 1 :=
    rfl
  have hrecords : ∀ k, (src.mutated mutation operation request draw).records.lookup k =
      if k = mutation.key then
        some ⟨mutation.key, mutation.payload, draw, mutation.deleted, src.counter + 1⟩
      else src.records.lookup k := fun _ => Keyed.lookup_insert
  have hoperations : ∀ id, (src.mutated mutation operation request draw).operations.lookup id =
      if id = operation then
        some ⟨operation, request, mutation.outcome operation draw (src.counter + 1)⟩
      else src.operations.lookup id := fun _ => Keyed.lookup_insert
  refine ⟨⟨?_, ?_, ?_⟩, ?_, ?_, ?_, ?_, ?_, ?_, ?_, ?_, ?_⟩
  · intro m e h
    rcases hs.event_cases h with hold | ⟨rfl, rfl⟩
    · exact hs.numbered.seq m e hold
    · rfl
  · intro m e h
    rcases hs.event_cases h with hold | ⟨rfl, rfl⟩
    · have := hs.numbered.range m e hold
      omega
    · omega
  · intro m e h
    rcases hs.event_cases h with hold | ⟨rfl, rfl⟩
    · exact hs.numbered.revision m e hold
    · rfl
  · intro change hchange
    rcases List.mem_append.mp hchange with hold | hlast
    · exact hext.old _ _ (hs.listed change hold)
    · obtain rfl := List.mem_singleton.mp hlast
      exact hnew
  · intro k row hrow
    rw [hrecords] at hrow
    split at hrow
    case isTrue hk =>
      cases hrow
      exact ⟨_, ⟨hnew, congrArg some hk.symm⟩, rfl, rfl, rfl⟩
    case isFalse =>
      obtain ⟨e, hat, hsame⟩ := hs.current k row hrow
      exact ⟨e, hext.at hat, hsame⟩
  · intro k m e hat
    rw [hrecords]
    have hle : m ≤ src.counter + 1 := by
      rcases hs.event_cases hat.1 with hold | ⟨rfl, _⟩
      · exact (hs.numbered.range m e hold).2.trans (by omega)
      · exact le_refl _
    by_cases hk : k = mutation.key
    · exact ⟨_, if_pos hk, hle⟩
    · rw [if_neg hk]
      rcases hs.event_cases hat.1 with hold | ⟨_, rfl⟩
      · exact hs.latest k m e ⟨hold, hat.2⟩
      · exact absurd (Option.some.inj hat.2).symm hk
  · intro id row hrow
    rw [hoperations] at hrow
    split at hrow
    case isTrue hop =>
      cases hrow
      exact ⟨⟨_, hnew⟩, congrArg some hop.symm⟩
    case isFalse =>
      obtain ⟨⟨m, hm⟩, houtcome⟩ := hs.remembered id row hrow
      exact ⟨⟨m, hext.old m _ hm⟩, houtcome⟩
  · intro m e h
    rcases hs.event_cases h with hold | ⟨rfl, rfl⟩
    · obtain ⟨id, row, hop, hrow, houtcome⟩ := hs.recalled m e hold
      refine ⟨id, row, hop, ?_, houtcome⟩
      rw [hoperations, if_neg]
      · exact hrow
      · rintro rfl
        cases hnone.symm.trans hrow
    · exact ⟨operation, _, rfl, (hoperations operation).trans (if_pos rfl), rfl⟩
  · intro m e id h hop
    rcases hs.event_cases h with hold | ⟨rfl, rfl⟩
    · exact hknown id (hs.ids m e id hold hop)
    · cases hop
      exact hid
  · intro m e v h hv
    rcases hs.event_cases h with hold | ⟨rfl, rfl⟩
    · exact hknown v (hs.revisions m e v hold hv)
    · cases hv
      exact hdraw
  · -- the new revision is not one of the old ones
    have hother : ∀ m e, src.log m = some e → e.revision ≠ some draw := by
      intro m e hold heq
      exact hfresh (hs.revisions m e draw hold heq)
    intro m m' e e' h h' heq
    rcases hs.event_cases h with hold | ⟨rfl, rfl⟩
    · rcases hs.event_cases h' with hold' | ⟨rfl, rfl⟩
      · exact hs.distinct m m' e e' hold hold' heq
      · exact absurd heq (hother m e hold)
    · rcases hs.event_cases h' with hold' | ⟨rfl, rfl⟩
      · exact absurd heq.symm (hother m' e' hold')
      · rfl
  · intro id snapshot hsnapshot
    obtain ⟨hin, seq, hcursor, hseq, hcaptures⟩ := hs.snapshots id snapshot hsnapshot
    refine ⟨hknown id hin, seq, hcursor, Nat.le_succ_of_le hseq, hcaptures.extend hext ?_⟩
    omega

/-! ## Pages -/

/-- A page of the feed has events of the log. -/
theorem ensures_sourceChanges {limit : Nat} :
    Ensures (sourceChanges b cursor limit) src fun page src' =>
      src' = src ∧ ∀ e ∈ page.events, ∃ m, src.log m = some e := by
  unfold sourceChanges
  simp only [ensures_bind]
  refine ensures_assertAccess ?_
  simp only [ensures_raiseIf]
  intro _
  refine ensures_cursorCounter fun after => ?_
  simp only [ensures_get, ensures_pure]
  intro _ _
  refine ⟨trivial, ?_⟩
  intro e he
  obtain ⟨change, hchange, rfl⟩ := List.mem_map.mp he
  exact ⟨_, hs.listed change (List.mem_filter.mp (List.mem_of_mem_take hchange)).1⟩

/-- The records as they are hold the last event of every key. -/
theorem Source.Sound.captures :
    Captures src.log (src.records.rows.map SourceRecord.row) src.counter := by
  constructor
  · intro e he key hkey
    obtain ⟨row, hrow, rfl⟩ := List.mem_map.mp he
    cases hkey
    have hlookup := Keyed.mem_rows.mp hrow
    obtain ⟨e, hat, hsame⟩ := hs.current _ row hlookup
    refine ⟨row.counter, e, rfl, (hs.numbered.range _ e hat.1).2, hat, hsame, ?_⟩
    intro m' e' hat' _
    obtain ⟨row', hrow', hle⟩ := hs.latest _ m' e' hat'
    cases hlookup.symm.trans hrow'
    exact hle
  · intro m e key hat _
    obtain ⟨row, hrow, _⟩ := hs.latest key m e hat
    refine List.mem_map.mpr ⟨row.row, List.mem_map_of_mem (Keyed.mem_of_lookup hrow), ?_⟩
    exact congrArg some (Keyed.lookup_key hrow)

end

/-- The tables after a new snapshot. -/
def Source.captured (src : Source) (b : Binding) (draw : Uuid) (now : Int) : Source :=
  { src.pruned now with snapshots := (src.pruned now).snapshots.insert (src.capture b draw now) }

theorem ensures_sourceSnapshot {limit : Nat} {Q : SnapshotPage → Source → Prop}
    (hnew : cursor = none → Q ((src.capture b draw now).page 0 limit) (src.captured b draw now))
    (hold : ∀ id offset snapshot, cursor = some (.snap id offset) →
      src.snapshots.lookup id = some snapshot → Q (snapshot.page offset limit) src) :
    Ensures (sourceSnapshot b draw now cursor limit) src Q := by
  unfold sourceSnapshot
  simp only [ensures_bind]
  refine ensures_assertAccess ?_
  simp only [ensures_raiseIf]
  intro _
  split
  case h_1 =>
    simp only [ensures_bind, ensures_get, ensures_raiseIf, ensures_modify, ensures_pure]
    intro _
    exact hnew rfl
  case h_2 id offset =>
    simp only [ensures_bind, ensures_get]
    split
    case h_1 => exact ensures_throw.mpr trivial
    case h_2 snapshot hsnapshot =>
      simp only [ensures_bind, ensures_raiseIf, ensures_pure]
      intro _
      exact hold id offset snapshot rfl (Option.eq_some_of_filter_eq_some hsnapshot)
  case h_3 => exact ensures_throw.mpr trivial

/-- A snapshot in the table was there before, or is the new one. -/
theorem captured_snapshots {id : Uuid} {snapshot : Snapshot}
    (h : (src.captured b draw now).snapshots.lookup id = some snapshot) :
    (id = draw ∧ snapshot = src.capture b draw now) ∨ src.snapshots.lookup id = some snapshot := by
  have hlookup : (src.captured b draw now).snapshots.lookup id =
      if id = draw then some (src.capture b draw now) else (src.pruned now).snapshots.lookup id :=
    Keyed.lookup_insert
  rw [hlookup] at h
  split at h
  case isTrue hid => exact .inl ⟨hid, (Option.some.inj h).symm⟩
  case isFalse => exact .inr (Keyed.lookup_of_filterRows h)

theorem Source.Sound.learn (hs : src.Sound b known) (hknown : ∀ id ∈ known, id ∈ known') :
    src.Sound b known' := by
  refine ⟨hs.numbered, hs.listed, hs.current, hs.latest, hs.remembered, hs.recalled, ?_, ?_,
    hs.distinct, ?_⟩
  · intro m e id h hop
    exact hknown id (hs.ids m e id h hop)
  · intro m e v h hv
    exact hknown v (hs.revisions m e v h hv)
  · intro id snapshot h
    obtain ⟨hin, hrest⟩ := hs.snapshots id snapshot h
    exact ⟨hknown id hin, hrest⟩

theorem Source.Sound.captured (hs : src.Sound b known) (hknown : ∀ id ∈ known, id ∈ known')
    (hdraw : draw ∈ known') : (src.captured b draw now).Sound b known' := by
  have hs' := hs.learn hknown
  refine ⟨hs.numbered, hs.listed, hs.current, hs.latest, hs.remembered, hs.recalled, hs'.ids,
    hs'.revisions, hs.distinct, ?_⟩
  intro id snapshot h
  rcases captured_snapshots h with ⟨rfl, rfl⟩ | hold
  · exact ⟨hdraw, src.counter, rfl, le_refl _, hs.captures⟩
  · exact hs'.snapshots id snapshot hold

end NoizuMcp.Sync
