import NoizuMcp.Sync.Moves

/-!
# Local revisions

Every write of a record that changes what it shows, by a client or by the
synchronisation, gives it a new local revision. So the local revisions of a record only
grow, a revision stands for one content, and a client that states the revision it has
seen cannot overwrite what it has not seen.
-/

set_option autoImplicit false

namespace NoizuMcp.Sync

open Foundation.Tx

open Foundation.Runs (run)

open Protocol (Json)

/-- The record is the same or a later one: with the same revision, it has the same
content. -/
structure Record.Supersedes (r' r : Record) : Prop where
  le : r.localRevision ≤ r'.localRevision
  content : r'.localRevision = r.localRevision → r'.payload = r.payload ∧ r'.deleted = r.deleted

variable {b : Binding} {c c' : Cache} {key : Json} {r r' r'' : Record} {e : Event}

theorem Record.Supersedes.refl : r.Supersedes r := ⟨le_refl _, fun _ => ⟨rfl, rfl⟩⟩

theorem Record.Supersedes.trans (h : r'.Supersedes r) (h' : r''.Supersedes r') :
    r''.Supersedes r := by
  refine ⟨h.le.trans h'.le, ?_⟩
  intro heq
  have hle := h.le
  have hle' := h'.le
  obtain ⟨hpayload, hdeleted⟩ := h.content (by omega)
  obtain ⟨hpayload', hdeleted'⟩ := h'.content (by omega)
  exact ⟨hpayload'.trans hpayload, hdeleted'.trans hdeleted⟩

/-- A greater revision supersedes whatever it shows. -/
theorem Record.Supersedes.of_lt (h : r.localRevision < r'.localRevision) : r'.Supersedes r :=
  ⟨le_of_lt h, fun heq => absurd heq (ne_of_gt h)⟩

/-- Nothing is a version of a record before the first. -/
def Later (old new : Option Record) : Prop :=
  ∀ r, old = some r → ∃ r', new = some r' ∧ r'.Supersedes r

theorem Later.refl {old : Option Record} : Later old old := fun r h => ⟨r, h, .refl⟩

theorem Later.trans {old mid new : Option Record} (h : Later old mid) (h' : Later mid new) :
    Later old new := by
  intro r hr
  obtain ⟨r', hr', hsupersedes⟩ := h r hr
  obtain ⟨r'', hr'', hsupersedes'⟩ := h' r' hr'
  exact ⟨r'', hr'', hsupersedes.trans hsupersedes'⟩

theorem Later.of_supersedes (h : r'.Supersedes r) : Later (some r) (some r') := by
  rintro _ ⟨⟩
  exact ⟨r', rfl, h⟩

theorem Record.shows_supersedes (counter : Int) : (r.shows e counter).Supersedes r :=
  .of_lt (Int.lt_add_one_of_le (le_refl _))

/-- A row that becomes clean keeps its revision and its content. -/
theorem Record.clean_supersedes : ({ r with state := .clean } : Record).remote.Supersedes r :=
  ⟨le_refl _, fun _ => ⟨rfl, rfl⟩⟩

/-! ## Moves -/

theorem Applies.supersedes (h : Applies key e (some r) r') : r'.Supersedes r := by
  cases h with
  | newer => exact Record.shows_supersedes _
  | older => exact .refl

theorem AppliesAll.supersedes {events : List Event} (h : AppliesAll key events r r') :
    r'.Supersedes r := by
  induction h with
  | nil => exact .refl
  | cons hfirst _ ih => exact hfirst.supersedes.trans ih

theorem Move.later {cause : Cause} {s s' : Slice} (h : Move key cause s s') :
    Later s.record s'.record := by
  cases h with
  | write hqueues =>
    intro r₀ hr₀
    obtain ⟨_, hrevision, _⟩ := hqueues.updated r₀ hr₀
    exact ⟨_, rfl, .of_lt (by omega)⟩
  | claim | retry | defer => exact .refl
  | exhaust _ _ hrecord | block _ _ hrecord | conflict _ _ hrecord =>
    rw [hrecord]
    exact .of_supersedes (.of_lt (Int.lt_add_one_of_le (le_refl _)))
  | settle _ _ hrecord _ _ _ _ _ hdrained =>
    rw [hrecord]
    exact .of_supersedes ((Record.shows_supersedes _).trans hdrained.supersedes)
  | feed _ happlies =>
    intro r₀ hr₀
    rw [hr₀] at happlies
    exact ⟨_, rfl, happlies.supersedes⟩
  | answer _ _ _ _ hrecord _ _ happlies _ hdrained =>
    rw [hrecord]
    exact .of_supersedes
      ((Record.clean_supersedes.trans happlies.supersedes).trans hdrained.supersedes)
  | accept _ _ _ hrecord =>
    rw [hrecord]
    exact .of_supersedes (Record.shows_supersedes _)
  | requeue _ _ _ hrecord =>
    rw [hrecord]
    refine .of_supersedes (.of_lt ?_)
    show _ < _ + 1 + 1
    omega

theorem Published.later {rows : List Event} {seq : Int} {s s' : Slice}
    (h : Published rows seq key s s') : Later s.record s'.record := by
  cases h with
  | row _ _ happlies =>
    intro r₀ hr₀
    rw [hr₀] at happlies
    exact ⟨_, rfl, happlies.supersedes⟩
  | drop _ hrecord =>
    rw [hrecord]
    exact .of_supersedes (.of_lt (Int.lt_add_one_of_le (le_refl _)))
  | keep => exact .refl

theorem Transition.later {act : Act} {v v' : View} (h : Transition act v v') (k : Json) :
    Later (v.slices k).record (v'.slices k).record := by
  cases h with
  | @move _ key _ s n _ hmove =>
    by_cases hk : k = key
    · subst hk
      simp only [Function.update_self]
      exact hmove.later
    · simp only [Function.update_of_ne hk]
      exact .refl
  | resume => exact .refl
  | publish _ _ hslices => exact (hslices k).later

/-! ## Runs -/

variable {replies : List (Except Raised Reply)} {calls : List Call}

/-- Along a run every record is superseded by its later versions. -/
theorem run_later (htidy : c.view.Tidy) (h : run (Cache.step b) c calls = some (c', replies))
    (key : Json) : Later (c.records.lookup key) (c'.records.lookup key) :=
  run_view_invariant (fun v => Later (c.records.lookup key) (v.slices key).record)
    (fun _ _ _ _ htransition hlater => hlater.trans (htransition.later key)) htidy .refl h

theorem run_tidy (htidy : c.view.Tidy) (h : run (Cache.step b) c calls = some (c', replies)) :
    c'.view.Tidy :=
  run_view_invariant View.Tidy (fun _ _ _ hv htransition _ => htransition.tidy hv) htidy htidy h

/-- The record that a call is about, and the revision that the caller has seen of it. -/
def Call.target (c : Cache) : Call → Option (Json × Option Int)
  | .put _ _ key _ expected => some (key, expected)
  | .remove _ _ key expected => some (key, expected)
  | .resolve _ _ conflict _ expected =>
    (c.conflicts.lookup conflict).map fun row => (row.key, expected)
  | _ => none

theorem step_ok {call : Call} {reply : Reply} {P : Prop} (h : c.step b call = some (c', .ok reply))
    (hensures : Ensures (call.run b) c fun _ _ => P) : P :=
  hensures.of_commit (Option.some.inj h)

/-- A call of a client succeeds only at the revision that it states. -/
theorem expected_of_ok {call : Call} {reply : Reply} {expected : Option Int}
    (htidy : c.view.Tidy) (htarget : call.target c = some (key, expected))
    (h : c.step b call = some (c', .ok reply)) : expected = some (c.localRevision key) := by
  cases call with
  | put =>
    cases htarget
    exact step_ok h (ensures_map.mpr (ensures_put fun _ _ hexpected _ _ => hexpected))
  | remove =>
    cases htarget
    exact step_ok h (ensures_map.mpr (ensures_remove fun _ _ hexpected _ _ => hexpected))
  | resolve =>
    obtain ⟨row, hrow, heq⟩ := Option.map_eq_some_iff.mp htarget
    cases heq
    refine step_ok h (ensures_map.mpr (ensures_resolve htidy ?_))
    intro _ _ conflict r hconflict hr hexpected _
    cases hrow.symm.trans hconflict
    unfold Cache.localRevision
    rw [hr]
    exact hexpected
  | writeRows | claim | ack | fail | apply | publish | pause | resume => cases htarget

/-- In every run of the cache the local revision of a record never decreases, a revision
of a record shows one payload and one deleted flag wherever it occurs in the run, and a
call of a client with an expected revision succeeds only if the record has it. -/
theorem no_lost_update (b : Binding) (before after : List Call) {c c' : Cache}
    {replies replies' : List (Except Raised Reply)}
    (hbefore : run (Cache.step b) {} before = some (c, replies))
    (hafter : run (Cache.step b) c after = some (c', replies')) :
    (∀ key r, c.records.lookup key = some r → ∃ r', c'.records.lookup key = some r' ∧
      r.localRevision ≤ r'.localRevision ∧
      (r'.localRevision = r.localRevision → r'.payload = r.payload ∧ r'.deleted = r.deleted)) ∧
    ∀ call key expected reply c'', call.target c' = some (key, expected) →
      c'.step b call = some (c'', .ok reply) → expected = some (c'.localRevision key) := by
  have htidy := run_tidy tidy_empty hbefore
  constructor
  · intro key r hr
    obtain ⟨r', hr', hsupersedes⟩ := run_later htidy hafter key r hr
    exact ⟨r', hr', hsupersedes.le, hsupersedes.content⟩
  · intro call key expected reply c'' htarget hstep
    exact expected_of_ok (run_tidy htidy hafter) htarget hstep

/-! A binding of notes with one record, as the samples of this development use it. -/

def notes : Binding := { id := "cache", sourceBindingId := some "source", relation := "notes" }

def noteKey : Json := .obj [("id", .str "1")]

def note (text : String) : Json := .obj [("text", .str text)]

/-- A client writes a new note. -/
def noteWritten : List Call := [.put "a" 0 noteKey (some (note "one")) (some 0)]

/-- A worker delivers it. -/
def noteDelivered : List Call :=
  [.claim 1 (some 30), .ack 2 "a" (some 1)
    { key := some noteKey, revision := some "r", value := some (note "one"), eventId := .value 1,
      operationId := some "a" }]

/-- The delivered note supersedes the one that the client wrote. -/
theorem no_lost_update_note : ∃ c c' replies replies',
    run (Cache.step notes) {} noteWritten = some (c, replies) ∧
    run (Cache.step notes) c noteDelivered = some (c', replies') ∧
    c.localRevision noteKey = 1 ∧ c'.localRevision noteKey = 2 ∧
    ∀ key r, c.records.lookup key = some r → ∃ r', c'.records.lookup key = some r' ∧
      r.localRevision ≤ r'.localRevision := by
  refine ⟨_, _, _, _, rfl, rfl, by decide +kernel, by decide +kernel, ?_⟩
  intro key r hr
  obtain ⟨r', hr', hle, _⟩ := (no_lost_update notes noteWritten noteDelivered rfl rfl).1 key r hr
  exact ⟨r', hr', hle⟩

end NoizuMcp.Sync
