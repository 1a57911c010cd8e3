import NoizuMcp.Sync.System

/-!
# A cache that catches up

Whenever the position of the cache is the head of the source, every record without an
open write equals the record at the source, as long as the workers hold only values that
come through the codec unchanged: a fraction with more digits than a double keeps is rounded
on its way. Between such moments a record only moves forward, as long as no snapshot is
published that lacks a live record: a snapshot that was captured before another worker's
acknowledgement puts the record back.
-/

set_option autoImplicit false

namespace NoizuMcp.Sync

open Foundation (Keyed)

open Foundation.Runs (run All)

open Protocol (Json)

variable {L : Log} {setup : Setup} {world world' : World} {step : Step} {key : Json} {r : Record}
  {steps later : List Step} {outputs outputs' : List Unit} {v v' : View} {act : Act} {head : Int}
  {codec : Codec}

/-- Under a condition that has the codec keep the values, a run over the codec is a run that
hands them on unchanged. -/
theorem run_kept {C : World → Step → Prop}
    (hkeeps : ∀ world step, C world step → world.keeps codec step = true)
    (hall : All (World.nextOver codec setup) C world steps)
    (h : run (World.nextOver codec setup) world steps = some (world', outputs)) :
    All (World.next setup) C world steps ∧
      run (World.next setup) world steps = some (world', outputs) := by
  obtain ⟨hall', hsame⟩ := hall.congr fun world step hC => World.nextOver_eq (hkeeps world step hC)
  exact ⟨hall', hsame ▸ h⟩

/-! ## At the head -/

section

variable (hs : world.Sound setup) (hhead : world.cache.position = world.source.counter)
  (hr : world.cache.records.lookup key = some r)

include hs hhead hr

/-- At the head no record is behind. -/
theorem World.Sound.exact_at_head (hsettled : r.state.settled = true) :
    Exact world.source.log key r := by
  have hf := hs.cache.follows key
  rcases hf.shown r hr hsettled with hexact | ⟨m, e, hat, hlt, _⟩
  · exact hexact
  · have hm : m ≤ world.cache.position := by
      rw [hhead]
      exact (hs.source.numbered.range m e hat.1).2
    obtain ⟨r', hr', hle | ⟨hopen, _⟩⟩ := hf.passed m e hat hm
    · cases hr.symm.trans hr'
      exact absurd hlt (not_lt.mpr hle)
    · cases hr.symm.trans hr'
      rw [hsettled] at hopen
      cases hopen

/-- A record at the last event of its key shows the record of the source. -/
theorem World.Sound.exact_last (hsettled : r.state.settled = true) :
    ∃ row, world.source.records.lookup key = some row ∧ r.Shows row.row := by
  obtain ⟨e, hat, hshows⟩ := hs.exact_at_head hhead hr hsettled
  obtain ⟨row, hrow, hle⟩ := hs.source.latest key _ e hat
  obtain ⟨e', hat', hsame⟩ := hs.source.current key row hrow
  have hm : row.counter ≤ world.cache.position := by
    rw [hhead]
    exact (hs.source.numbered.range _ e' hat'.1).2
  have hcounter : row.counter ≤ r.sourceCounter := by
    obtain ⟨r', hr', hle' | ⟨hopen, _⟩⟩ := (hs.cache.follows key).passed _ e' hat' hm
    · cases hr.symm.trans hr'
      exact hle'
    · cases hr.symm.trans hr'
      rw [hsettled] at hopen
      cases hopen
  have heq : r.sourceCounter = row.counter := le_antisymm hle hcounter
  rw [heq] at hat
  cases Option.some.inj (hat.1.symm.trans hat'.1)
  refine ⟨row, hrow, ?_⟩
  exact hshows.same ⟨hsame.revision.symm, hsame.value.symm, hsame.removes.symm⟩

end

/-- A cache whose position is the head of the source has a record for every key of the
source, and each of its records without an open write equals the record of the source, after
a run in which the codec keeps what the workers hold. -/
theorem caught_up_equals_source
    (h : run (World.nextOver codec setup) {} steps = some (world, outputs))
    (hkeeps : All (World.nextOver codec setup) (fun world step => world.keeps codec step = true)
      {} steps)
    (hhead : world.cache.position = world.source.counter) :
    (∀ key row, world.source.records.lookup key = some row →
      ∃ r, world.cache.records.lookup key = some r) ∧
    ∀ key r, world.cache.records.lookup key = some r →
      r.state = .clean ∨ r.state = .tombstone →
      ∃ row, world.source.records.lookup key = some row ∧ r.payload = some row.payload ∧
        r.sourceRevision = some row.revision ∧ r.deleted = row.deleted := by
  have hs := run_sound (run_kept (fun _ _ hkeeps => hkeeps) hkeeps h).2
  constructor
  · intro key row hrow
    obtain ⟨e, hat, _⟩ := hs.source.current key row hrow
    have hm : row.counter ≤ world.cache.position := by
      rw [hhead]
      exact (hs.source.numbered.range _ e hat.1).2
    obtain ⟨r, hr, _⟩ := (hs.cache.follows key).passed _ e hat hm
    exact ⟨r, hr⟩
  · intro key r hr hstate
    have hsettled : r.state.settled = true := by
      rcases hstate with hstate | hstate <;> rw [hstate] <;> rfl
    obtain ⟨row, hrow, hshows⟩ := hs.exact_last hhead hr hsettled
    exact ⟨row, hrow, hshows.payload, hshows.revision, hshows.deleted⟩

/-- A fraction of nineteen digits. -/
def fine : Json := .obj [("text", .float (1234567890123456789 / 10 ^ 19))]

/-- The digits of the double next to it. -/
def coarse : Json := .obj [("text", .float (12345678901234568 / 10 ^ 17))]

/-- What Jason does to the values of the notes here. -/
def rounding : Codec where
  recode value := if value = fine then coarse else value
  again value := by
    have hcoarse : coarse ≠ fine := by decide +kernel
    by_cases hvalue : value = fine
    · simp only [if_pos hvalue, if_neg hcoarse]
    · simp only [if_neg hvalue]

/-! A source of notes behind the binding of notes. -/

def notesSource : Binding := { id := "source", relation := "notes" }

def notesSetup : Setup := ⟨notes, notesSource, "notes"⟩

/-- The mutation that delivers a client's first write of the note. -/
def noteRequest (operation : Uuid) (kind : Operation) (precondition : Precondition)
    (text : String) : Request where
  operationId := some operation
  key := some noteKey
  operation := some kind
  precondition := precondition
  value := some (note text)
  relation := some "notes"

/-- Another writer creates the note, and a worker takes it over with a snapshot. -/
def noteTaken : List Step :=
  [.write "r" (noteRequest "w" .create .absent "one"), .pull 0, .page 0 "s" 0, .publish 0 1]

/-- A client changes the note, and the worker delivers the change and pulls it. -/
def noteChanged : List Step :=
  [.client (.put "a" 2 noteKey (some (note "two")) (some 1)), .claim 0 3 (some 30),
    .deliver 0 3 0, .execute "t" (noteRequest "a" .update (.revision (some "r")) "two") (some 0),
    .ack 0 4, .pull 0, .changes 0, .apply 0 5]

/-- After the change the cache is at the head of the source and shows its payload. -/
theorem caught_up_note : ∃ world outputs,
    run (World.nextOver rounding notesSetup) {} (noteTaken ++ noteChanged) =
      some (world, outputs) ∧
    world.cache.position = 2 ∧ (world.source.counter : Int) = 2 ∧
    ∀ key r, world.cache.records.lookup key = some r →
      r.state = .clean ∨ r.state = .tombstone →
      ∃ row, world.source.records.lookup key = some row ∧ r.payload = some row.payload := by
  have hrun : (run (World.nextOver rounding notesSetup) {} (noteTaken ++ noteChanged)).map
      (fun end_ => (end_.1.cache.position, (end_.1.source.counter : Int))) = some (2, 2) := by
    decide +kernel
  have hkeeps : All (World.nextOver rounding notesSetup) (fun world step =>
      world.keeps rounding step = true) {} (noteTaken ++ noteChanged) := by decide +kernel
  obtain ⟨⟨world, outputs⟩, h, heq⟩ := Option.map_eq_some_iff.mp hrun
  obtain ⟨hposition, hcounter⟩ := Prod.mk.inj heq
  refine ⟨world, outputs, h, hposition, hcounter, ?_⟩
  intro key r hr hstate
  obtain ⟨row, hrow, hpayload, _⟩ :=
    (caught_up_equals_source h hkeeps (hposition.trans hcounter.symm)).2 key r hr hstate
  exact ⟨row, hrow, hpayload⟩

/-- Another writer creates a note with the long fraction, and a worker takes it over. -/
def fineTaken : List Step :=
  [.write "r" { noteRequest "w" .create .absent "" with value := some fine }, .pull 0,
    .page 0 "s" 0, .publish 0 1]

/-- The cache is at the head of the source with a clean record, whose payload is rounded. -/
theorem fine_rounded :
    (run (World.nextOver rounding notesSetup) {} fineTaken).map (fun end_ =>
      (end_.1.cache.position, (end_.1.source.counter : Int))) = some (1, 1) ∧
    (run (World.nextOver rounding notesSetup) {} fineTaken).map (fun end_ =>
      (end_.1.cache.records.lookup noteKey).map fun r => (r.state, r.payload)) =
        some (some (.clean, some coarse)) ∧
    (run (World.nextOver rounding notesSetup) {} fineTaken).map (fun end_ =>
      (end_.1.source.records.lookup noteKey).map SourceRecord.payload) = some (some fine) ∧
    coarse ≠ fine := by
  refine ⟨?_, ?_, ?_, ?_⟩ <;> decide +kernel

/-- Up to its position the cache skips no event: the record of the key is as far, or has an open
write and the event waits. A settled record shows a version of the source, or is behind one. -/
theorem no_event_skipped (h : run (World.nextOver codec setup) {} steps = some (world, outputs))
    (hkeeps : All (World.nextOver codec setup) (fun world step => world.keeps codec step = true)
      {} steps) (key : Json) :
    (∀ m e, world.source.log.At key m e → m ≤ world.cache.position →
      ∃ r, world.cache.records.lookup key = some r ∧ (m ≤ r.sourceCounter ∨
        r.state.settled = false ∧ (world.cache.slice key).Waiting e)) ∧
    ∀ r, world.cache.records.lookup key = some r → r.state.settled = true →
      Exact world.source.log key r ∨ Behind world.source.log key r :=
  have hrun := (run_kept (fun _ _ hkeeps => hkeeps) hkeeps h).2
  have hfollows := (run_sound hrun).cache.follows key
  ⟨hfollows.passed, hfollows.shown⟩

def otherKey : Json := .obj [("id", .str "2")]

/-- Two notes are taken over. A client and another writer change the first, and the worker
pulls the other writer's change while the client's is open. -/
def noteWaits : List Step :=
  .write "q" { noteRequest "v" .create .absent "other" with key := some otherKey } :: noteTaken ++
    [.client (.put "a" 2 noteKey (some (note "two")) (some 1)),
      .write "u" (noteRequest "x" .update (.revision (some "r")) "three"), .pull 0, .changes 0,
      .apply 0 3]

/-- The third event, which is the first note's, waits; the second note is settled. -/
theorem no_event_skipped_note : ∃ world outputs e other,
    run (World.nextOver rounding notesSetup) {} noteWaits = some (world, outputs) ∧
    world.cache.position = 3 ∧ world.source.log 3 = some e ∧ e.value = some (note "three") ∧
    (world.cache.slice noteKey).Waiting e ∧
    world.cache.records.lookup otherKey = some other ∧ other.state = .clean ∧
    (Exact world.source.log otherKey other ∨ Behind world.source.log otherKey other) := by
  have hrun : (run (World.nextOver rounding notesSetup) {} noteWaits).map (fun end_ =>
      (end_.1.cache.position, (end_.1.source.log 3).map fun e => (e.key, e.value))) =
      some (3, some (some noteKey, some (note "three"))) := by
    decide +kernel
  have hrecords : (run (World.nextOver rounding notesSetup) {} noteWaits).map (fun end_ =>
      ((end_.1.cache.records.lookup noteKey).map Record.sourceCounter,
        (end_.1.cache.records.lookup otherKey).map Record.state)) =
      some (some 2, some .clean) := by
    decide +kernel
  have hkeeps : All (World.nextOver rounding notesSetup) (fun world step =>
      world.keeps rounding step = true) {} noteWaits := by decide +kernel
  obtain ⟨⟨world, outputs⟩, h, heq⟩ := Option.map_eq_some_iff.mp hrun
  rw [h] at hrecords
  simp only [Option.map_some, Option.some.injEq, Prod.mk.injEq, Option.map_eq_some_iff]
    at heq hrecords
  obtain ⟨hposition, e, he, hkey, hvalue⟩ := heq
  obtain ⟨⟨r, hr, hcounter⟩, other, hother, hclean⟩ := hrecords
  refine ⟨world, outputs, e, other, h, hposition, he, hvalue, ?_, hother, hclean, ?_⟩
  · obtain ⟨r', hr', hle | ⟨_, hwaiting⟩⟩ :=
      (no_event_skipped h hkeeps noteKey).1 3 e ⟨he, hkey⟩ hposition.ge
    · cases hr.symm.trans hr'
      rw [hcounter] at hle
      exact absurd hle (by decide)
    · exact hwaiting
  · exact (no_event_skipped h hkeeps otherKey).2 other hother (by rw [hclean]; rfl)

/-! ## Forward only -/

/-- A snapshot that is published has the key of every live record. -/
def World.covers (world : World) : Step → Bool
  | .publish w _ =>
    match world.workers w with
    | .publishing rows _ _ => world.cache.records.rows.all fun r =>
      r.deleted || decide (some r.key ∈ rows.map Event.key)
    | _ => true
  | _ => true

/-- The rows have the key of every live record. -/
def View.Covered (rows : List Event) (v : View) : Prop :=
  ∀ key r, (v.slices key).record = some r → r.deleted = false → some key ∈ rows.map Event.key

/-- No counter is behind, and settled records show the events at their counters. -/
structure View.Ahead (L : Log) (v v' : View) : Prop where
  le : ∀ key r, (v.slices key).record = some r →
    ∃ r', (v'.slices key).record = some r' ∧ r.sourceCounter ≤ r'.sourceCounter
  exact : ∀ key r, (v'.slices key).record = some r → r.state.settled = true → Exact L key r

variable {rows : List Event} {seq : Int} {call : Call}

theorem Published.covered {s s' : Slice} (h : Published rows seq key s s')
    (hcovered : ∀ r, s.record = some r → r.deleted = false → some key ∈ rows.map Event.key) :
    ∀ r, s'.record = some r → r.deleted = false → some key ∈ rows.map Event.key := by
  cases h with
  | row hrow _ happlies =>
    intro _ _ _
    exact List.mem_map.mpr ⟨_, hrow, happlies.event_key⟩
  | drop hmissing hrecord hkept => exact absurd (hcovered _ hrecord hkept) hmissing
  | keep => exact hcovered

theorem Transition.covered (h : Transition (.publish rows seq) v v') (hv : v.Covered rows) :
    v'.Covered rows := by
  cases h with
  | publish _ _ hslices => exact fun key => (hslices key).covered (hv key)

/-- A snapshot that has the key of a live record takes it up or leaves it. -/
theorem Published.settles {n : Int} {s s' : Slice} (h : Published rows seq key s s')
    (hrows : Captures L rows seq) (hs : s.Agrees)
    (hcovered : ∀ r, s.record = some r → r.deleted = false → some key ∈ rows.map Event.key) :
    (∃ r, Settles L n seq key s s' r) ∨ s' = s := by
  cases h with
  | row hrow _ happlies => exact .inl ⟨_, hrows.settles hrow happlies hs⟩
  | drop hmissing hrecord hkept => exact absurd (hcovered _ hrecord hkept) hmissing
  | keep => exact .inr rfl

/-- A transition does not put a record back, unless a snapshot drops it. -/
theorem Transition.ahead {D : Uuid → Prop} (hlog : L.Numbered head) (h : Transition act v v')
    (hallowed : act.Allowed L head D v) (hs : v.Sound L)
    (hcovered : ∀ rows seq, act = .publish rows seq → v.Covered rows)
    (hv : ∀ key r, (v.slices key).record = some r → r.state.settled = true → Exact L key r) :
    v.Ahead L v' := by
  cases h with
  | @move _ key _ s n hposition hmove =>
    have hprogress := hmove.progress hlog hposition (hs.tidy key) (hs.agrees key)
      (hs.follows key) hallowed.source
    constructor
    · intro k r hr
      by_cases hk : k = key
      · subst hk
        simp only [Function.update_self]
        exact hprogress.le hr
      · simp only [Function.update_of_ne hk]
        exact ⟨r, hr, le_refl _⟩
    · intro k r hr
      by_cases hk : k = key
      · subst hk
        simp only [Function.update_self] at hr
        exact hprogress.exact (hv k) r hr
      · simp only [Function.update_of_ne hk] at hr
        exact hv k r hr
  | resume => exact ⟨fun key r hr => ⟨r, hr, le_refl _⟩, hv⟩
  | @publish _ rows seq slices _ _ hslices =>
    have hslice : ∀ k, (∃ r, Settles L v.position seq k (v.slices k) (slices k) r) ∨
        slices k = v.slices k := fun k =>
      (hslices k).settles hallowed.source (hs.agrees k) (hcovered rows seq rfl k)
    constructor
    · intro k r hr
      show ∃ r', (slices k).record = some r' ∧ _
      rcases hslice k with ⟨r', hsettles⟩ | heq
      · exact ⟨r', hsettles.record, hsettles.le r hr⟩
      · rw [heq]
        exact ⟨r, hr, le_refl _⟩
    · intro k r hr
      change (slices k).record = some r at hr
      rcases hslice k with ⟨r', hsettles⟩ | heq
      · exact (Progress.settles (D := D) hsettles).exact (hv k) r hr
      · rw [heq] at hr
        exact hv k r hr

/-- Only `publish_snapshot` publishes. -/
theorem Call.eq_publish {b : Binding} (h : call.admits b (.publish rows seq)) :
    ∃ now cursor snapshotId, call = .publish now rows cursor snapshotId := by
  cases call with
  | publish now _ cursor snapshotId =>
    obtain ⟨_, _, heq⟩ := h
    injection heq with hrows
    exact ⟨now, cursor, snapshotId, by rw [hrows]⟩
  | put | remove | resume => cases h
  | writeRows | resolve | claim | ack | apply =>
    simp only [Call.admits, Feeds] at h
    simp at h
  | fail => obtain ⟨_, heq | ⟨_, heq⟩⟩ := h <;> cases heq
  | pause => exact h.elim

/-- The snapshot of a step that meets the condition. -/
theorem Call.Made.covered (hmade : call.Made world step) (hcovers : world.covers step = true)
    (h : call.admits setup.cache (.publish rows seq)) : world.cache.view.Covered rows := by
  obtain ⟨now, cursor, snapshotId, rfl⟩ := call.eq_publish h
  obtain ⟨w, sourceCursor, rfl, hstage, _⟩ := hmade
  unfold World.covers at hcovers
  simp only [hstage, List.all_eq_true, Bool.or_eq_true, decide_eq_true_eq] at hcovers
  intro key r hr hlive
  rcases hcovers r (Keyed.mem_of_lookup hr) with hdeleted | hin
  · rw [hlive] at hdeleted
    cases hdeleted
  · have hkey : r.key = key := Keyed.lookup_key hr
    rwa [hkey] at hin

theorem View.Ahead.refl
    (h : ∀ key r, (v.slices key).record = some r → r.state.settled = true → Exact L key r) :
    v.Ahead L v := ⟨fun _ r hr => ⟨r, hr, le_refl _⟩, h⟩

theorem View.Ahead.trans {v'' : View} (h : v.Ahead L v') (h' : v'.Ahead L v'') : v.Ahead L v'' := by
  refine ⟨?_, h'.exact⟩
  intro key r hr
  obtain ⟨r', hr', hle⟩ := h.le key r hr
  obtain ⟨r'', hr'', hle'⟩ := h'.le key r' hr'
  exact ⟨r'', hr'', hle.trans hle'⟩

theorem View.Ahead.grow {L' : Log} (hlog : ∀ m e, L m = some e → L' m = some e)
    (h : v.Ahead L v') : v.Ahead L' v' := by
  refine ⟨h.le, ?_⟩
  intro key r hr hsettled
  obtain ⟨e, hat, hshows⟩ := h.exact key r hr hsettled
  exact ⟨e, ⟨hlog _ e hat.1, hat.2⟩, hshows⟩

theorem World.Sound.ahead (hs : world.Sound setup) (hmade : call.Made world step)
    (hfresh : world.fresh call.draws = true) (hcovers : world.covers step = true)
    (hexact : ∀ key r, (world.cache.slice key).record = some r → r.state.settled = true →
      Exact world.source.log key r) :
    world.cache.view.Ahead world.source.log (world.call setup call).cache.view := by
  have hpath : Path (call.admits setup.cache) world.cache.view (world.call setup call).cache.view :=
    Cache.step_path hs.cache.tidy rfl
  have hstart : world.cache.view.Onward world.source.log world.source.counter (· ∈ call.draws)
      world.cache.view := ⟨hs.cache, hs.position, fun _ => .of_same rfl, fun _ _ _ _ h => h⟩
  -- along the acts of the call, the rows to be published go on to cover the live records
  refine (hpath.invariant (fun u => world.cache.view.Onward world.source.log world.source.counter
      (· ∈ call.draws) u ∧ world.cache.view.Ahead world.source.log u ∧
        ∀ rows seq, call.admits setup.cache (.publish rows seq) → u.Covered rows) ?_
    ⟨hstart, .refl hexact, fun rows seq h => hmade.covered hcovers h⟩).2.1
  intro act u u' hadmits htransition ⟨honward, hahead, hcovered⟩
  have hallowed := call.allowed hs hmade hfresh hadmits htransition honward
  refine ⟨htransition.onward hs.source.numbered hallowed honward, ?_, ?_⟩
  · refine hahead.trans (htransition.ahead hs.source.numbered hallowed honward.sound ?_
    hahead.exact)
    rintro rows seq rfl
    exact hcovered rows seq hadmits
  · intro rows seq hpublish
    obtain ⟨now, cursor, snapshotId, rfl⟩ := call.eq_publish hpublish
    obtain ⟨seq', _, rfl⟩ := hadmits
    exact htransition.covered (hcovered rows seq hpublish)

/-- A world that is ahead of another, at the log that it has come to. -/
def World.Ahead (world world' : World) : Prop :=
  world.cache.view.Ahead world'.source.log world'.cache.view

theorem Touch.ahead {start : World} (h : Touch setup step world world') (hs : world.Sound setup)
    (hcovers : world.covers step = true) (hahead : start.Ahead world) : start.Ahead world' := by
  have hgrows := h.grows hs
  cases h with
  | skip => exact hahead
  | call _ hmade hfresh => exact View.Ahead.trans hahead (hs.ahead hmade hfresh hcovers
    hahead.exact)
  | mutate | snapshot => exact View.Ahead.grow hgrows hahead

theorem Advance.ahead {start : World} (h : Advance setup step world world')
    (hs : world.Sound setup) (hcovers : world.covers step = true) (hahead : start.Ahead world) :
    start.Ahead world' := by
  obtain ⟨touched, htouch, hturns⟩ := h
  obtain ⟨hcache, hsource, _⟩ := hturns.same
  unfold World.Ahead
  rw [hcache, hsource]
  exact htouch.ahead hs hcovers hahead

/-- The events of the log are rows of `source_changes`. -/
theorem log_mem {src : Source} {m : Int} {e : Event} (h : src.log m = some e) :
    ∃ change ∈ src.changes, change.counter = m ∧ change.event = e := by
  obtain ⟨change, hfind, rfl⟩ := Option.map_eq_some_iff.mp h
  have hcounter := List.find?_some hfind
  exact ⟨change, List.mem_of_find?_eq_some hfind, of_decide_eq_true hcounter, rfl⟩

/-- In a run in which the codec keeps what the workers hold and every snapshot that is
published has the keys of the live records, the counter of a record never goes back, and a
record without an open write shows the one event that has its revision. -/
theorem never_moves_backwards
    (h : run (World.nextOver codec setup) {} steps = some (world, outputs))
    (h' : run (World.nextOver codec setup) world later = some (world', outputs'))
    (hsafe : All (World.nextOver codec setup)
      (fun world step => world.covers step = true ∧ world.keeps codec step = true) {} steps)
    (hsafe' : All (World.nextOver codec setup)
      (fun world step => world.covers step = true ∧ world.keeps codec step = true) world later) :
    (∀ key r, world.cache.records.lookup key = some r →
      ∃ r', world'.cache.records.lookup key = some r' ∧ r.sourceCounter ≤ r'.sourceCounter) ∧
    ∀ key r, world'.cache.records.lookup key = some r →
      r.state = .clean ∨ r.state = .tombstone →
      ∃ change ∈ world'.source.changes, change.event.revision = r.sourceRevision ∧
        change.event.key = some key ∧ r.payload = change.event.value ∧
        r.deleted = change.event.removes ∧
        ∀ other ∈ world'.source.changes, other.event.revision = r.sourceRevision →
          other = change := by
  have hkept : ∀ (start world : World) (step : Step) (world' : World), world.Sound setup →
      start.Ahead world → world.covers step = true ∧ world.keeps codec step = true →
      Advance setup step world world' → start.Ahead world' :=
    fun _ _ _ _ hs hahead hsafe hadvance => hadvance.ahead hs hsafe.1 hahead
  obtain ⟨hall, hrun⟩ := run_kept (fun _ _ hsafe => hsafe.2) hsafe h
  obtain ⟨hall', hrun'⟩ := run_kept (fun _ _ hsafe => hsafe.2) hsafe' h'
  have hstart : World.Ahead {} {} := View.Ahead.refl fun _ _ hr => by cases hr
  obtain ⟨hs, hahead⟩ := run_along (World.Ahead {}) (hkept {}) sound_start hstart hall hrun
  obtain ⟨hs', hahead'⟩ := run_along world.Ahead (hkept world) hs (.refl hahead.exact) hall' hrun'
  refine ⟨hahead'.le, ?_⟩
  intro key r hr hstate
  have hsettled : r.state.settled = true := by
    rcases hstate with hstate | hstate <;> rw [hstate] <;> rfl
  obtain ⟨e, hat, hshows⟩ := hahead'.exact key r hr hsettled
  obtain ⟨change, hchange, hcounter, rfl⟩ := log_mem hat.1
  refine ⟨change, hchange, hshows.revision.symm, hat.2, hshows.payload, hshows.deleted, ?_⟩
  intro other hother hrevision
  have hlog := hs'.source.listed change hchange
  have hlog' := hs'.source.listed other hother
  have hsame := hs'.source.distinct _ _ _ _ hlog' hlog (hrevision.trans hshows.revision)
  rw [hsame] at hlog'
  have hevent := Option.some.inj (hlog'.symm.trans hlog)
  cases change
  cases hsame
  cases hevent
  rfl

/-- The counter of the note goes from one to two. -/
theorem never_moves_backwards_note : ∃ world outputs world' outputs',
    run (World.nextOver rounding notesSetup) {} noteTaken = some (world, outputs) ∧
    run (World.nextOver rounding notesSetup) world noteChanged = some (world', outputs') ∧
    (world.cache.records.lookup noteKey).map Record.sourceCounter = some 1 ∧
    (world'.cache.records.lookup noteKey).map Record.sourceCounter = some 2 ∧
    ∀ key r, world.cache.records.lookup key = some r →
      ∃ r', world'.cache.records.lookup key = some r' ∧ r.sourceCounter ≤ r'.sourceCounter := by
  have hall : All (World.nextOver rounding notesSetup) (fun world step =>
      world.covers step = true ∧ world.keeps rounding step = true) {} noteTaken := by
    decide +kernel
  have hrun : (run (World.nextOver rounding notesSetup) {} noteTaken).map (fun taken =>
      (decide (All (World.nextOver rounding notesSetup) (fun world step =>
          world.covers step = true ∧ world.keeps rounding step = true) taken.1 noteChanged),
        (taken.1.cache.records.lookup noteKey).map Record.sourceCounter,
        (run (World.nextOver rounding notesSetup) taken.1 noteChanged).map fun changed =>
          (changed.1.cache.records.lookup noteKey).map Record.sourceCounter)) =
      some (true, some 1, some (some 2)) := by
    decide +kernel
  obtain ⟨⟨world, outputs⟩, h, heq⟩ := Option.map_eq_some_iff.mp hrun
  simp only [Prod.mk.injEq, decide_eq_true_eq] at heq
  obtain ⟨hall', hcounter, hlater⟩ := heq
  obtain ⟨⟨world', outputs'⟩, h', hcounter'⟩ := Option.map_eq_some_iff.mp hlater
  exact ⟨world, outputs, world', outputs', h, h', hcounter, hcounter',
    (never_moves_backwards h h' hall hall').1⟩

/-- A worker captures a snapshot of the empty source. Then a client writes the note, and
another worker delivers it. -/
def noteOutrun : List Step :=
  [.snapshot 1, .page 1 "s" 0, .client (.put "a" 1 noteKey (some (note "one")) (some 0)),
    .claim 0 2 (some 30), .deliver 0 2 0,
    .execute "r" (noteRequest "a" .create .absent "one") (some 0), .ack 0 3]

/-- The note that the other worker delivered. -/
def noteShown : Record where
  key := noteKey
  payload := some (note "one")
  sourceRevision := some "r"
  sourceCounter := 1
  localRevision := 2
  state := .clean
  lastOrigin := .remote

/-- The event that wrote it. -/
def noteEvent : Event where
  key := some noteKey
  revision := some "r"
  value := some (note "one")
  deleted := .value false
  eventId := .value 1
  operationId := some "a"

/-- The first worker publishes what it has: the note becomes a tombstone without payload at
position `0`, with the revision of the event that wrote it. No value changes on its way. -/
theorem outrun_note :
    (run (World.nextOver Codec.exact notesSetup) {} noteOutrun).map (fun before =>
      before.1.cache.records.lookup noteKey) = some (some noteShown) ∧
    (run (World.nextOver Codec.exact notesSetup) {} (noteOutrun ++ [.publish 1 4])).map
      (fun after => (after.1.cache.records.lookup noteKey, after.1.source.changes)) =
      some (some (noteShown.dropped 0), [⟨1, noteEvent⟩]) ∧
    (noteShown.dropped 0).sourceCounter = 0 ∧ (noteShown.dropped 0).state = .tombstone ∧
    (noteShown.dropped 0).payload = none ∧ (noteShown.dropped 0).sourceRevision = some "r" := by
  refine ⟨?_, ?_, rfl, rfl, rfl, rfl⟩
  · decide +kernel
  · decide +kernel

end NoizuMcp.Sync
