import NoizuMcp.Sync.QueueAgreement

/-!
# Records that follow a feed

What the rows of a key have to do with the events of the source. `Slice.Follows L n` says
that the cache has taken up the events of the log `L` up to the position `n`: each of them
is behind the record's counter, or set aside while a write of the record is open. A
settled record shows the event at its counter; the one exception is a record that a
snapshot has dropped, which is behind an event that is still to come. Every move whose
data come from the log keeps this, and so does a snapshot of the log.
-/

set_option autoImplicit false

namespace NoizuMcp.Sync

open Protocol (Json)

/-- The events of a source, by their numbers. -/
abbrev Log := Int → Option Event

variable {L : Log} {D : Uuid → Prop} {n n' : Int} {key : Json} {s s' : Slice} {r r' : Record}
  {e : Event}

/-- The event of a key with a number. -/
def Log.At (L : Log) (key : Json) (m : Int) (e : Event) : Prop := L m = some e ∧ e.key = some key

/-- The events have their numbers, from `1` up to the head, and a revision. -/
structure Log.Numbered (L : Log) (head : Int) : Prop where
  seq : ∀ m e, L m = some e → e.seq = some m
  range : ∀ m e, L m = some e → 1 ≤ m ∧ m ≤ head
  revision : ∀ m e, L m = some e → e.revision.isSome = true

/-- The record shows the version that an event describes. -/
structure Record.Shows (r : Record) (e : Event) : Prop where
  payload : r.payload = e.value
  revision : r.sourceRevision = e.revision
  deleted : r.deleted = e.removes

/-- Two descriptions of one version. -/
structure Event.Same (e e' : Event) : Prop where
  revision : e.revision = e'.revision
  value : e.value = e'.value
  removes : e.removes = e'.removes

variable {e' evidence : Event} {cause : Cause} {m seq head : Int} {rows events : List Event}
  {L' : Log} {operation : Uuid}

theorem Record.Shows.same (h : r.Shows e) (hsame : e.Same e') : r.Shows e' :=
  ⟨h.payload.trans hsame.value, h.revision.trans hsame.revision, h.deleted.trans hsame.removes⟩

theorem Record.shows_shows (counter : Int) : (r.shows e counter).Shows e := ⟨rfl, rfl, rfl⟩

/-- What is known of the source when it refuses a write: its version of the record, or
that there is none. -/
def Evidence (L : Log) (key : Json) (floor : Int) (evidence : Event) : Prop :=
  ∃ m, evidence.seq = some m ∧ floor ≤ m ∧
    (evidence.revision.isSome = true → ∃ e, L.At key m e ∧ evidence.Same e)

/-- The record is at an event of its key. -/
def Exact (L : Log) (key : Json) (r : Record) : Prop :=
  ∃ e, L.At key r.sourceCounter e ∧ r.Shows e

/-- The record is behind an event of its key, with the revision of the event. -/
def Behind (L : Log) (key : Json) (r : Record) : Prop :=
  ∃ m e, L.At key m e ∧ r.sourceCounter < m ∧ r.sourceRevision = e.revision

/-- The rows of a key have taken up the events up to a position. -/
structure Slice.Follows (L : Log) (n : Int) (key : Json) (s : Slice) : Prop where
  passed : ∀ m e, L.At key m e → m ≤ n → ∃ r, s.record = some r ∧
    (m ≤ r.sourceCounter ∨ r.state.settled = false ∧ s.Waiting e)
  shown : ∀ r, s.record = some r → r.state.settled = true → Exact L key r ∨ Behind L key r
  reached : ∀ r, s.record = some r → r.sourceCounter = 0 ∨
    ∃ m e, L.At key m e ∧ r.sourceCounter ≤ m
  answers : ∀ r id o m e, s.record = some r → s.ops id = some o → o.state.isOpen = true →
    L m = some e → e.operationId = some o.operationId → r.sourceCounter < m
  evidence : ∀ r id conflict, s.record = some r → s.conflicts id = some conflict →
    conflict.state = .open → Evidence L key r.sourceCounter conflict.remoteEvidence
  deferred : ∀ id d, s.deferred id = some d → L id = some d.event

/-- The id that a move draws for a new write. -/
def Cause.Draws : Cause → Uuid → Prop
  | .client draw, id => id = draw
  | .resolve draw, id => id = draw
  | _, _ => False

/-- No event has the id. -/
def Log.Unused (L : Log) (id : Uuid) : Prop := ∀ m e, L m = some e → e.operationId ≠ some id

/-- The data of a move come from the log. -/
def Cause.From (L : Log) (key : Json) (s : Slice) : Cause → Prop
  | .client draw => L.Unused draw
  | .queue => True
  | .conflict _ evidence => ∀ r, s.record = some r → Evidence L key r.sourceCounter evidence
  | .outcome _ result => ∃ m, L m = some result
  | .feed seq e => L seq = some e
  | .resolve draw => L.Unused draw

theorem Cause.From.unused (h : cause.From L key s) {id : Uuid} (hdraws : cause.Draws id) :
    L.Unused id := by
  cases cause with
  | client | resolve =>
    cases hdraws
    exact h
  | queue | conflict | outcome | feed => cases hdraws

/-- A record that follows the log has not passed the answer to its own write. -/
theorem Slice.Follows.current (h : s.Follows L n key) (hfrom : cause.From L key s) :
    cause.Current s := by
  cases cause with
  | feed seq e =>
    intro r o hrecord hop hanswered _
    unfold Outbox.answeredBy at hanswered
    simp only [Bool.and_eq_true, decide_eq_true_eq] at hanswered
    obtain ⟨⟨⟨hflight, _⟩, hoperation⟩, _⟩ := hanswered
    have hopen := OutboxState.open_of_live (OutboxState.live_of_inFlight hflight)
    exact h.answers r _ o seq e hrecord hop hopen hfrom hoperation
  | client | queue | conflict | outcome | resolve => trivial

/-! ## Applying events -/

theorem Applies.counter (h : Applies key e (some r) r') (hseq : e.seq = some m) :
    r.sourceCounter ≤ r'.sourceCounter ∧ m ≤ r'.sourceCounter := by
  cases h with
  | newer _ hseq' _ _ hlt =>
    cases hseq.symm.trans hseq'
    exact ⟨le_of_lt hlt, le_refl _⟩
  | older _ hseq' _ hle =>
    cases hseq.symm.trans hseq'
    exact ⟨le_refl _, hle⟩

theorem Applies.exact (h : Applies key e (some r) r') (hseq : e.seq = some m) (hat : L.At key m e')
    (hsame : e.Same e') (hr : Exact L key r) : Exact L key r' := by
  cases h with
  | newer _ hseq' =>
    cases hseq.symm.trans hseq'
    exact ⟨e', hat, (Record.shows_shows _).same hsame⟩
  | older => exact hr

theorem Event.Same.refl : e.Same e := ⟨rfl, rfl, rfl⟩

/-- Events of the log, applied one after the other. -/
theorem AppliesAll.exact (hlog : L.Numbered head) (h : AppliesAll key events r r')
    (hevents : ∀ e ∈ events, ∃ m, L m = some e) (hr : Exact L key r) :
    Exact L key r' ∧ r.sourceCounter ≤ r'.sourceCounter ∧
      ∀ e ∈ events, ∀ m, e.seq = some m → m ≤ r'.sourceCounter := by
  induction h with
  | nil => exact ⟨hr, le_refl _, fun e he => absurd he List.not_mem_nil⟩
  | @cons e _ r _ _ hfirst _ ih =>
    obtain ⟨m, hm⟩ := hevents e List.mem_cons_self
    have hseq := hlog.seq m e hm
    obtain ⟨hle, hm'⟩ := hfirst.counter hseq
    have hr' := hfirst.exact hseq ⟨hm, hfirst.event_key⟩ .refl hr
    obtain ⟨hexact, hle', hrest⟩ := ih (fun e he => hevents e (List.mem_cons_of_mem _ he)) hr'
    refine ⟨hexact, hle.trans hle', ?_⟩
    intro e' he' m' hseq'
    rcases List.mem_cons.mp he' with rfl | hin
    · cases hseq.symm.trans hseq'
      exact hm'.trans hle'
    · exact hrest e' hin m' hseq'

/-! ## Moves -/

theorem Exact.reached (h : Exact L key r) : ∃ m e, L.At key m e ∧ r.sourceCounter ≤ m := by
  obtain ⟨e, hat, _⟩ := h
  exact ⟨_, e, hat, le_refl _⟩

theorem Behind.reached (h : Behind L key r) : ∃ m e, L.At key m e ∧ r.sourceCounter ≤ m := by
  obtain ⟨m, e, hat, hlt, _⟩ := h
  exact ⟨m, e, hat, le_of_lt hlt⟩

/-- The record is settled at or beyond everything that the slice knew. -/
structure Settles (L : Log) (n n' : Int) (key : Json) (s s' : Slice) (r' : Record) : Prop where
  quiet : s'.Quiet
  record : s'.record = some r'
  settled : r'.state.settled = true
  shown : Exact L key r' ∨ s.record = some r'
  le : ∀ r, s.record = some r → r.sourceCounter ≤ r'.sourceCounter
  waiting : ∀ e m, s.Waiting e → e.seq = some m → m ≤ r'.sourceCounter
  new : ∀ m e, L.At key m e → n < m → m ≤ n' → m ≤ r'.sourceCounter
  deferred : ∀ id d, s'.deferred id = some d → ∃ d₀, s.deferred id = some d₀ ∧ d.event = d₀.event

theorem Settles.follows (hlog : L.Numbered head) (hs : s.Follows L n key)
    (h : Settles L n n' key s s' r') : s'.Follows L n' key := by
  have hshown : Exact L key r' ∨ Behind L key r' :=
    h.shown.elim .inl fun hsame => hs.shown r' hsame h.settled
  refine ⟨?_, ?_, ?_, ?_, ?_, ?_⟩
  · intro m e hat hm
    refine ⟨r', h.record, .inl ?_⟩
    by_cases hn : m ≤ n
    · obtain ⟨r, hr, hcounter | ⟨_, hset⟩⟩ := hs.passed m e hat hn
      · exact hcounter.trans (h.le r hr)
      · exact h.waiting e m hset (hlog.seq m e hat.1)
    · exact h.new m e hat (not_le.mp hn) hm
  · intro r hr _
    cases h.record.symm.trans hr
    exact hshown
  · intro r hr
    cases h.record.symm.trans hr
    exact .inr (hshown.elim Exact.reached Behind.reached)
  · intro r id o m e _ hop hopen
    rw [h.quiet.idle id o hop] at hopen
    cases hopen
  · intro r id conflict _ hconflict hopen
    exact absurd hopen (h.quiet.closed id conflict hconflict)
  · intro id d hd
    obtain ⟨d₀, hd₀, heq⟩ := h.deferred id d hd
    rw [heq]
    exact hs.deferred id d₀ hd₀

/-- The record has an open write, at the counter that it had; a new write has an id that
has been drawn for it. -/
structure Keeps (L : Log) (D : Uuid → Prop) (n n' : Int) (key : Json) (s s' : Slice)
    (r' : Record) : Prop where
  record : s'.record = some r'
  opened : r'.state.settled = false
  counter : ∀ r, s.record = some r → r'.sourceCounter = r.sourceCounter
  absent : s.record = none → r'.sourceCounter = 0
  waiting : ∀ e, s.Waiting e → s'.Waiting e
  new : ∀ m e, L.At key m e → n < m → m ≤ n' → s'.Waiting e
  ops : ∀ id o, s'.ops id = some o → o.state.isOpen = true →
    (∃ r o₀, s.record = some r ∧ s.ops id = some o₀ ∧ o₀.state.isOpen = true ∧
      o₀.operationId = o.operationId) ∨ D o.operationId
  conflicts : ∀ id conflict, s'.conflicts id = some conflict → conflict.state = .open →
    (∃ r, s.record = some r ∧ s.conflicts id = some conflict) ∨
      Evidence L key r'.sourceCounter conflict.remoteEvidence
  deferred : ∀ id d, s'.deferred id = some d → s.deferred id = some d ∨ L id = some d.event

theorem Keeps.follows (hdrawn : ∀ id, D id → L.Unused id) (hs : s.Follows L n key)
    (h : Keeps L D n n' key s s' r') : s'.Follows L n' key := by
  refine ⟨?_, ?_, ?_, ?_, ?_, ?_⟩
  · intro m e hat hm
    refine ⟨r', h.record, ?_⟩
    by_cases hn : m ≤ n
    · obtain ⟨r, hr, hle | ⟨_, hset⟩⟩ := hs.passed m e hat hn
      · exact .inl (by rw [h.counter r hr]; exact hle)
      · exact .inr ⟨h.opened, h.waiting e hset⟩
    · exact .inr ⟨h.opened, h.new m e hat (not_le.mp hn) hm⟩
  · intro r hr hsettled
    cases h.record.symm.trans hr
    rw [h.opened] at hsettled
    cases hsettled
  · intro r hr
    cases h.record.symm.trans hr
    cases hold : s.record with
    | none => exact .inl (h.absent hold)
    | some r₀ =>
      rw [h.counter r₀ hold]
      exact hs.reached r₀ hold
  · intro r id o m e hr hop hisOpen hat hoperation
    cases h.record.symm.trans hr
    rcases h.ops id o hop hisOpen with ⟨r₀, o₀, hr₀, hop₀, hopen₀, hid⟩ | hnew
    · rw [h.counter r₀ hr₀]
      exact hs.answers r₀ id o₀ m e hr₀ hop₀ hopen₀ hat (hid ▸ hoperation)
    · exact absurd hoperation (hdrawn _ hnew m e hat)
  · intro r id conflict hr hconflict hstate
    cases h.record.symm.trans hr
    rcases h.conflicts id conflict hconflict hstate with ⟨r₀, hr₀, hold⟩ | hevidence
    · rw [h.counter r₀ hr₀]
      exact hs.evidence r₀ id conflict hr₀ hold hstate
    · exact hevidence
  · intro id d hd
    rcases h.deferred id d hd with hold | hat
    · exact hs.deferred id d hold
    · exact hat

/-- A move settles the record at an event of the log, or leaves it with an open write at
its counter, or does one after the other. -/
inductive Progress (L : Log) (D : Uuid → Prop) (n n' : Int) (key : Json) (s s' : Slice) :
    Prop where
  | settles {r' : Record} (h : Settles L n n' key s s' r')
  | keeps {r' : Record} (h : Keeps L D n n' key s s' r')
  | requeues {s₁ : Slice} {r₁ r' : Record} (h₁ : Settles L n n' key s s₁ r₁)
      (h : Keeps L D n' n' key s₁ s' r')

theorem Progress.follows (hlog : L.Numbered head) (hdrawn : ∀ id, D id → L.Unused id)
    (hs : s.Follows L n key) (h : Progress L D n n' key s s') : s'.Follows L n' key := by
  cases h with
  | settles h => exact h.follows hlog hs
  | keeps h => exact h.follows hdrawn hs
  | requeues h₁ h => exact h.follows hdrawn (h₁.follows hlog hs)

/-- The counter of a record does not go back. -/
theorem Progress.le (h : Progress L D n n' key s s') (hr : s.record = some r) :
    ∃ r', s'.record = some r' ∧ r.sourceCounter ≤ r'.sourceCounter := by
  cases h with
  | settles h => exact ⟨_, h.record, h.le r hr⟩
  | keeps h => exact ⟨_, h.record, le_of_eq (h.counter r hr).symm⟩
  | requeues h₁ h =>
    refine ⟨_, h.record, ?_⟩
    rw [h.counter _ h₁.record]
    exact h₁.le r hr

/-- Settled records that show the events at their counters go on to do so. -/
theorem Progress.exact (h : Progress L D n n' key s s')
    (hs : ∀ r, s.record = some r → r.state.settled = true → Exact L key r) :
    ∀ r, s'.record = some r → r.state.settled = true → Exact L key r := by
  have hopen : ∀ {s₁ : Slice} {m m' : Int} {r' : Record}, Keeps L D m m' key s₁ s' r' →
      ∀ r, s'.record = some r → r.state.settled = true → Exact L key r := by
    intro s₁ m m' r' hkeeps r hr hsettled
    cases hkeeps.record.symm.trans hr
    rw [hkeeps.opened] at hsettled
    cases hsettled
  cases h with
  | settles h =>
    intro r hr _
    cases h.record.symm.trans hr
    exact h.shown.elim id fun hsame => hs _ hsame h.settled
  | keeps h | requeues _ h => exact hopen h

/-- An open write in another version. -/
theorem Keeps.of_update {o : Outbox} (o' : Outbox) (hsole : s.Sole o)
    (hid : o'.operationId = o.operationId)
    (hrecord : s.record = some r) (hrecord' : s'.record = some r')
    (hopen : r'.state.settled = false) (hcounter : r'.sourceCounter = r.sourceCounter)
    (hops : s'.ops = (s.setOperation o').ops) (hdeferred : s'.deferred = s.deferred)
    (hconflicts : ∀ id conflict, s'.conflicts id = some conflict → conflict.state = .open →
      s.conflicts id = some conflict ∨
        Evidence L key r'.sourceCounter conflict.remoteEvidence) :
    Keeps L D n n key s s' r' where
  record := hrecord'
  opened := hopen
  counter := by
    intro r₀ hr₀
    cases hrecord.symm.trans hr₀
    exact hcounter
  absent := by
    intro hnone
    cases hnone.symm.trans hrecord
  waiting := by
    rintro e ⟨id, d, hd, hnone, heq⟩
    exact ⟨id, d, by rw [hdeferred]; exact hd, hnone, heq⟩
  new := by
    intro m e _ hlt hle
    exact absurd hlt (not_lt.mpr hle)
  ops := by
    intro id row hop hisOpen
    rw [hops] at hop
    rcases Slice.setOperation_ops.mp hop with ⟨rfl, rfl⟩ | ⟨_, hold⟩
    · exact .inl ⟨r, o, hrecord, by rw [hid]; exact hsole.row, hsole.opened, hid.symm⟩
    · exact .inl ⟨r, row, hrecord, hold, hisOpen, rfl⟩
  conflicts := by
    intro id conflict hconflict hstate
    exact (hconflicts id conflict hconflict hstate).imp_left fun hold => ⟨r, hrecord, hold⟩
  deferred := by
    intro id d hd
    rw [hdeferred] at hd
    exact .inl hd

/-- What was set aside for a key has been marked. -/
theorem markApplied_deferred {now : Int} {id : Int} {d : Deferred}
    (h : (s.markApplied now).deferred id = some d) :
    ∃ d₀, s.deferred id = some d₀ ∧ d.event = d₀.event := by
  obtain ⟨d₀, hd₀, rfl⟩ := Option.map_eq_some_iff.mp h
  refine ⟨d₀, hd₀, ?_⟩
  split <;> rfl

/-- The events that wait are events of the log. -/
theorem Slice.Follows.waiting_log (h : s.Follows L n key) (hwaiting : s.Waiting e) :
    ∃ m, L m = some e := by
  obtain ⟨id, d, hd, _, rfl⟩ := hwaiting
  exact ⟨id, h.deferred id d hd⟩

/-- The events that wait, applied to a record that shows an event. -/
theorem Slice.Follows.drain (hlog : L.Numbered head) (hs : s.Follows L n key)
    (hwaiting : ∀ e, e ∈ events ↔ s.Waiting e) (h : AppliesAll key events r r')
    (hr : Exact L key r) :
    Exact L key r' ∧ r.sourceCounter ≤ r'.sourceCounter ∧
      ∀ e m, s.Waiting e → e.seq = some m → m ≤ r'.sourceCounter := by
  obtain ⟨hexact, hle, hall⟩ := h.exact hlog
    (fun e he => hs.waiting_log ((hwaiting e).mp he)) hr
  exact ⟨hexact, hle, fun e m hset => hall e ((hwaiting e).mpr hset) m⟩

/-- The newest version that is known of a record in conflict. -/
theorem Slice.Follows.newest (htidy : s.Tidy key n) (hs : s.Follows L n key)
    (hwaiting : ∀ e, e ∈ events ↔ s.Waiting e) (hlatest : e ∈ evidence :: events)
    (hmax : ∀ e' ∈ evidence :: events, e'.seq.getD 0 ≤ e.seq.getD 0)
    (hrevision : e.revision.isSome = true) (hevidence : Evidence L key r.sourceCounter evidence) :
    Exact L key (r.shows e (e.seq.getD r.sourceCounter)) ∧
      r.sourceCounter ≤ e.seq.getD r.sourceCounter ∧
      ∀ e' m, s.Waiting e' → e'.seq = some m → m ≤ e.seq.getD r.sourceCounter := by
  obtain ⟨floor, hfloor, hle, hversion⟩ := hevidence
  have hknown : ∃ m e', e.seq = some m ∧ L.At key m e' ∧ e.Same e' := by
    rcases List.mem_cons.mp hlatest with rfl | hin
    · obtain ⟨e', hat, hsame⟩ := hversion hrevision
      exact ⟨floor, e', hfloor, hat, hsame⟩
    · obtain ⟨id, d, hd, _, rfl⟩ := (hwaiting e).mp hin
      obtain ⟨hkey, hseq, _⟩ := htidy.deferred id d hd
      exact ⟨id, d.event, hseq, ⟨hs.deferred id d hd, hkey⟩, .refl⟩
  obtain ⟨m, e', hseq, hat, hsame⟩ := hknown
  have hfirst := hmax evidence List.mem_cons_self
  rw [hfloor] at hfirst
  simp only [hseq] at hfirst hmax ⊢
  refine ⟨⟨e', hat, (Record.shows_shows m).same hsame⟩, hle.trans hfirst, ?_⟩
  intro e'' m' hset hseq'
  have hother := hmax e'' (List.mem_cons_of_mem _ ((hwaiting e'').mpr hset))
  rwa [hseq'] at hother

theorem Slice.Quiet.setRecord (h : s.Quiet) : (s.setRecord r).Quiet :=
  ⟨h.idle, h.closed, h.drained⟩

/-- The first write of a record without an open one. -/
theorem Keeps.of_write {o : Outbox} (hquiet : s.Quiet) (hopen : r'.state.settled = false)
    (hcounter : ∀ r, s.record = some r → r'.sourceCounter = r.sourceCounter)
    (habsent : s.record = none → r'.sourceCounter = 0)
    (hdrawn : D o.operationId) : Keeps L D n n key s ((s.setRecord r').setOperation o) r' where
  record := rfl
  opened := hopen
  counter := hcounter
  absent := habsent
  waiting := fun e hset => absurd hset (hquiet.drained e)
  new := by
    intro m e _ hlt hle
    exact absurd hlt (not_lt.mpr hle)
  ops := by
    intro id row hop hisOpen
    rcases Slice.setOperation_ops.mp hop with ⟨_, rfl⟩ | ⟨_, hold⟩
    · exact .inr hdrawn
    · rw [hquiet.idle id row hold] at hisOpen
      cases hisOpen
  conflicts := by
    intro id conflict hconflict hstate
    exact absurd hstate (hquiet.closed id conflict hconflict)
  deferred := fun _ _ hd => .inl hd

theorem Applies.settles (hs : s.Agrees) (happlies : Applies key e s.record r)
    (hseq : e.seq = some seq) (hat : L.At key seq e') (hsame : e.Same e')
    (hnew : ∀ m e, L.At key m e → n < m → m ≤ n' → m ≤ seq) :
    Settles L n n' key s (s.setRecord r) r := by
  obtain ⟨hplain, hquiet⟩ := (hs.applies happlies).of_settled rfl happlies.settled
  have hdrained : ∀ e, ¬ s.Waiting e := hquiet.drained
  have hcounter : (∀ r₀, s.record = some r₀ → r₀.sourceCounter ≤ r.sourceCounter) ∧
      seq ≤ r.sourceCounter ∧ (Exact L key r ∨ s.record = some r) := by
    cases hrecord : s.record with rw [hrecord] at happlies
    | none =>
      cases happlies with
      | insert _ hseq' =>
        cases hseq.symm.trans hseq'
        refine ⟨?_, le_refl _, .inl ⟨e', hat, (Record.shows_shows seq).same hsame⟩⟩
        intro _ heq
        cases heq
    | some =>
      obtain ⟨hle, hle'⟩ := happlies.counter hseq
      refine ⟨?_, hle', ?_⟩
      · rintro _ ⟨⟩
        exact hle
      · cases happlies with
        | newer _ hseq' =>
          cases hseq.symm.trans hseq'
          exact .inl ⟨e', hat, (Record.shows_shows seq).same hsame⟩
        | older => exact .inr rfl
  refine ⟨hquiet, rfl, happlies.settled, hcounter.2.2, hcounter.1, ?_, ?_, ?_⟩
  · intro e m hset
    exact absurd hset (hdrained e)
  · intro m e hat' hlt hle
    exact (hnew m e hat' hlt hle).trans hcounter.2.1
  · intro id d hd
    exact ⟨d, hd, rfl⟩

theorem Move.progress (hlog : L.Numbered head) (h : Move key cause s s')
    (hposition : cause.Advances n n') (htidy : s.Tidy key n) (hs : s.Agrees)
    (hf : s.Follows L n key) (hfrom : cause.From L key s) :
    Progress L cause.Draws n n' key s s' := by
  have hagrees := h.agrees hs (hf.current hfrom)
  cases h with
  | write hqueues _ hidle =>
    cases hposition
    refine .keeps (.of_write (hs.of_idle hidle) (by rw [hqueues.state]; rfl) ?_ ?_ rfl)
    · intro r₀ hr₀
      exact (hqueues.updated r₀ hr₀).2.2.2.1
    · intro hnone
      exact (hqueues.created hnone).2.2.1
  | @claim _ o now lease hop hlive =>
    cases hposition
    obtain ⟨r, hrecord, hstate, hsole, _, _⟩ := hs.of_live hop hlive
    exact .keeps (.of_update (o.claimed now lease) hsole rfl hrecord hrecord (by rw [hstate]; rfl)
      rfl rfl rfl fun _ _ hconflict _ => .inl hconflict)
  | @retry _ o now hop hflight =>
    cases hposition
    obtain ⟨r, hrecord, hstate, hsole, _, _⟩ :=
      hs.of_live hop (OutboxState.live_of_inFlight hflight)
    exact .keeps (.of_update (o.failed now .unknown) hsole rfl hrecord hrecord (by rw [hstate]; rfl)
      rfl rfl rfl fun _ _ hconflict _ => .inl hconflict)
  | @exhaust _ o r hop hlive hrecord =>
    cases hposition
    obtain ⟨_, _, _, hsole, _, _⟩ := hs.of_live hop hlive
    exact .keeps (.of_update o.blocked hsole rfl hrecord rfl rfl rfl rfl rfl
      fun _ _ hconflict _ => .inl hconflict)
  | @block _ o r now hop hlive hrecord =>
    cases hposition
    obtain ⟨_, _, _, hsole, _, _⟩ := hs.of_live hop hlive
    exact .keeps (.of_update (o.failed now .blocked) hsole rfl hrecord rfl rfl rfl rfl rfl
      fun _ _ hconflict _ => .inl hconflict)
  | @conflict _ o r _ hop hflight hrecord =>
    cases hposition
    obtain ⟨_, _, _, hsole, _, _⟩ := hs.of_live hop (OutboxState.live_of_inFlight hflight)
    refine .keeps (.of_update o.conflicted hsole rfl hrecord rfl rfl rfl rfl rfl ?_)
    intro id row hrow _
    rcases Slice.setConflict_conflicts.mp hrow with ⟨_, rfl⟩ | ⟨_, hold⟩
    · exact .inr (hfrom r hrecord)
    · exact .inl hold
  | @settle _ o r _ result _ _ hop hflight hrecord _ hoperation hkey _ hwaiting hdrained =>
    cases hposition
    obtain ⟨m, hm⟩ := hfrom
    have hseq := hlog.seq m result hm
    have hlt := hf.answers r _ o m result hrecord hop
      (OutboxState.open_of_live (OutboxState.live_of_inFlight hflight)) hm hoperation
    rw [hseq] at hdrained
    have hshown : Exact L key (r.shows result m) := ⟨result, ⟨hm, hkey⟩, Record.shows_shows m⟩
    obtain ⟨hexact, hle, hall⟩ := hf.drain hlog hwaiting hdrained hshown
    have hsettled := hdrained.settled (Record.shows_plain m).settled
    refine .settles ⟨(hagrees.of_settled rfl hsettled).2, rfl, hsettled, .inl hexact, ?_, hall,
      ?_,
      fun id d hd => markApplied_deferred hd⟩
    · intro r₀ hr₀
      cases hrecord.symm.trans hr₀
      exact (le_of_lt hlt).trans hle
    · intro m' e' _ hlt' hle'
      exact absurd hlt' (not_lt.mpr hle')
  | feed hseq happlies =>
    obtain ⟨hnext, rfl⟩ := hposition
    refine .settles (happlies.settles hs hseq ⟨hfrom, happlies.event_key⟩ .refl ?_)
    intro m e' _ _ hle
    exact hle
  | @answer _ o r r' _ _ e _ _ hseq hop hflight _ hrecord _ hoperation happlies hwaiting hdrained =>
    obtain ⟨hnext, rfl⟩ := hposition
    have hlt := hf.answers r _ o _ e hrecord hop
      (OutboxState.open_of_live (OutboxState.live_of_inFlight hflight)) hfrom hoperation
    have hcounter := happlies.counter hseq
    have hshown : Exact L key r' := by
      cases happlies with
      | newer hkey hseq' =>
        cases hseq.symm.trans hseq'
        exact ⟨e, ⟨hfrom, hkey⟩, Record.shows_shows _⟩
      | older _ hseq' _ hle =>
        cases hseq.symm.trans hseq'
        exact absurd hlt (not_lt.mpr hle)
    obtain ⟨hexact, hle, hall⟩ := hf.drain hlog hwaiting hdrained hshown
    have hsettled := hdrained.settled happlies.settled
    refine .settles ⟨(hagrees.of_settled rfl hsettled).2, rfl, hsettled, .inl hexact, ?_, hall,
      ?_,
      fun id d hd => markApplied_deferred hd⟩
    · intro r₀ hr₀
      cases hrecord.symm.trans hr₀
      exact hcounter.1.trans hle
    · intro m' e' _ _ hle'
      exact hle'.trans (hcounter.2.trans hle)
  | @defer _ r _ e _ _ hrecord hopen hnew =>
    obtain ⟨hnext, rfl⟩ := hposition
    refine .keeps (show Keeps L _ n _ key s _ r from ⟨hrecord, hopen, ?_, ?_, ?_, ?_, ?_, ?_, ?_⟩)
    · intro r₀ hr₀
      cases hrecord.symm.trans hr₀
      rfl
    · intro hnone
      cases hnone.symm.trans hrecord
    · rintro e' ⟨id, d, hd, hnone, rfl⟩
      refine ⟨id, d, Slice.setDeferred_deferred.mpr (.inr ⟨?_, hd⟩), hnone, rfl⟩
      rintro rfl
      cases hnew.symm.trans hd
    · intro m e' hat hlt hle
      -- the only new event is the one that is set aside
      obtain rfl : m = n + 1 := by omega
      rw [← hnext] at hat
      cases (Option.some.inj (hfrom.symm.trans hat.1))
      exact ⟨_, _, Slice.setDeferred_deferred.mpr (.inl ⟨rfl, rfl⟩), rfl, rfl⟩
    · intro id row hop hisOpen
      exact .inl ⟨r, row, hrecord, hop, hisOpen, rfl⟩
    · intro id conflict hconflict _
      exact .inl ⟨r, hrecord, hconflict⟩
    · intro id d hd
      rcases Slice.setDeferred_deferred.mp hd with ⟨rfl, rfl⟩ | ⟨_, hold⟩
      · exact .inr hfrom
      · exact .inl hold
  | @accept _ o r conflict e _ _ hconflict hopen _ hrecord hwaiting hlatest hmax hrevision =>
    cases hposition
    obtain ⟨hexact, hle, hall⟩ := hf.newest htidy hwaiting hlatest hmax hrevision
      (hf.evidence r _ conflict hrecord hconflict hopen)
    have hsettled := (Record.shows_plain (r := r) (e := e) (e.seq.getD r.sourceCounter)).settled
    refine .settles ⟨(hagrees.of_settled rfl hsettled).2, rfl, hsettled, .inl hexact, ?_, hall, ?_,
      fun id d hd => markApplied_deferred hd⟩
    · intro r₀ hr₀
      cases hrecord.symm.trans hr₀
      exact hle
    · intro m' e' _ hlt' hle'
      exact absurd hlt' (not_lt.mpr hle')
  | @requeue _ o _ r conflict e _ now hconflict hopen hop hrecord hwaiting hlatest hmax hrevision _
      hidle =>
    cases hposition
    obtain ⟨hexact, hle, hall⟩ := hf.newest htidy hwaiting hlatest hmax hrevision
      (hf.evidence r _ conflict hrecord hconflict hopen)
    have hsettled := (Record.shows_plain (r := r) (e := e) (e.seq.getD r.sourceCounter)).settled
    obtain ⟨_, hdisputed⟩ := hs.of_open_conflict hconflict hopen hop
    have hquiet : ((s.resolved o conflict now).setRecord
        (r.shows e (e.seq.getD r.sourceCounter))).Quiet :=
      ⟨hidle, hdisputed.resolve now, fun _ => Slice.markApplied_drained now⟩
    refine .requeues ⟨hquiet, rfl, hsettled, .inl hexact, ?_, hall, ?_,
      fun id d hd => markApplied_deferred hd⟩ (.of_write hquiet rfl ?_ ?_ rfl)
    · intro r₀ hr₀
      cases hrecord.symm.trans hr₀
      exact hle
    · intro m' e' _ hlt' hle'
      exact absurd hlt' (not_lt.mpr hle')
    · rintro _ ⟨⟩
      rfl
    · intro hnone
      cases hnone

/-! ## Snapshots -/

/-- The rows are the last versions up to a number: one of every key that has an event. -/
structure Captures (L : Log) (rows : List Event) (seq : Int) : Prop where
  row : ∀ e ∈ rows, ∀ key, e.key = some key → ∃ m e', e.seq = some m ∧ m ≤ seq ∧ L.At key m e' ∧
    e.Same e' ∧ ∀ m' e'', L.At key m' e'' → m' ≤ seq → m' ≤ m
  complete : ∀ m e key, L.At key m e → m ≤ seq → some key ∈ rows.map Event.key

/-- Events of other keys do not matter. -/
theorem Slice.Follows.mono (h : s.Follows L n key)
    (hnone : ∀ m e, L.At key m e → m ≤ n' → m ≤ n) : s.Follows L n' key :=
  ⟨fun m e hat hm => h.passed m e hat (hnone m e hat hm), h.shown, h.reached, h.answers, h.evidence,
    h.deferred⟩

/-- A record that the snapshot does not have is still to come in the feed. -/
theorem Slice.Follows.drop (hrows : Captures L rows seq) (hmissing : some key ∉ rows.map Event.key)
    (hquiet : s.Quiet) (hrecord : s.record = some r) (hsettled : r.state.settled = true)
    (hf : s.Follows L n key) : (s.setRecord (r.dropped seq)).Follows L seq key := by
  have hlater : ∀ m e, L.At key m e → seq < m := by
    intro m e hat
    by_contra hle
    exact hmissing (hrows.complete m e key hat (not_lt.mp hle))
  have hbehind : Behind L key (r.dropped seq) := by
    rcases hf.shown r hrecord hsettled with ⟨e, hat, hshows⟩ | ⟨m, e, hat, _, hrevision⟩
    · exact ⟨_, e, hat, hlater _ e hat, hshows.revision⟩
    · exact ⟨m, e, hat, hlater m e hat, hrevision⟩
  refine ⟨?_, ?_, ?_, ?_, ?_, hf.deferred⟩
  · intro m e hat hm
    exact absurd (hlater m e hat) (not_lt.mpr hm)
  · rintro _ ⟨⟩ _
    exact .inr hbehind
  · rintro _ ⟨⟩
    exact .inr hbehind.reached
  · intro _ id o m e _ hop hopen
    rw [hquiet.idle id o hop] at hopen
    cases hopen
  · intro _ id conflict _ hconflict hopen
    exact absurd hopen (hquiet.closed id conflict hconflict)

/-- The row of a snapshot is taken up like an event. -/
theorem Captures.settles (hrows : Captures L rows seq) (hrow : e ∈ rows)
    (happlies : Applies key e s.record r) (hs : s.Agrees) :
    Settles L n seq key s (s.setRecord r) r := by
  obtain ⟨m, e', hseq, _, hat, hsame, hlast⟩ := hrows.row e hrow key happlies.event_key
  exact happlies.settles hs hseq hat hsame fun m' e'' hat' _ hle => hlast m' e'' hat' hle

/-- After a snapshot nothing is open. -/
theorem Published.quiet (h : Published rows seq key s s')
    (hsettled : ∀ r, s.record = some r → r.state.settled = true) (hs : s.Agrees) : s'.Quiet := by
  have hquiet : s.Quiet := by
    cases hrecord : s.record with
    | none =>
      cases hs with
      | absent _ hquiet => exact hquiet
      | settled hsome | pending hsome | blocked hsome | conflict hsome =>
        cases hrecord.symm.trans hsome
    | some r => exact (hs.of_settled hrecord (hsettled r hrecord)).2
  cases h with
  | row | drop => exact hquiet.setRecord
  | keep => exact hquiet

/-- A snapshot of the log is taken up as a whole. -/
theorem Published.follows (hlog : L.Numbered head) (hrows : Captures L rows seq)
    (h : Published rows seq key s s') (hsettled : ∀ r, s.record = some r → r.state.settled = true)
    (hs : s.Agrees) (hf : s.Follows L n key) : s'.Follows L seq key := by
  cases h with
  | row hrow _ happlies => exact (hrows.settles hrow happlies hs).follows hlog hf
  | drop hmissing hrecord =>
    have hclean := hsettled _ hrecord
    exact hf.drop hrows hmissing (hs.of_settled hrecord hclean).2 hrecord hclean
  | keep hmissing =>
    refine hf.mono ?_
    intro m e hat hm
    exact absurd (hrows.complete m e key hat hm) hmissing

/-! ## A growing log -/

/-- The log has one more event. -/
structure Log.Extends (L L' : Log) (head : Int) : Prop where
  old : ∀ m e, L m = some e → L' m = some e
  new : ∀ m e, L' m = some e → L m = some e ∨ m = head + 1

theorem Log.Extends.at (h : L.Extends L' head) (hat : L.At key m e) : L'.At key m e :=
  ⟨h.old m e hat.1, hat.2⟩

theorem Evidence.extend {floor : Int} (h : L.Extends L' head) (hevidence : Evidence L key floor e) :
    Evidence L' key floor e := by
  obtain ⟨m, hseq, hle, hversion⟩ := hevidence
  refine ⟨m, hseq, hle, fun hrevision => ?_⟩
  obtain ⟨e', hat, hsame⟩ := hversion hrevision
  exact ⟨e', h.at hat, hsame⟩

theorem Exact.extend (h : L.Extends L' head) (hr : Exact L key r) : Exact L' key r := by
  obtain ⟨e, hat, hshows⟩ := hr
  exact ⟨e, h.at hat, hshows⟩

theorem Captures.extend (h : L.Extends L' head) (hseq : seq ≤ head) (hrows : Captures L rows seq) :
    Captures L' rows seq := by
  have hold : ∀ m e k, L'.At k m e → m ≤ seq → L.At k m e := by
    intro m e k hat hm
    rcases h.new m e hat.1 with hold | rfl
    · exact ⟨hold, hat.2⟩
    · omega
  constructor
  · intro e he k hk
    obtain ⟨m, e', hm, hle, hat, hsame, hlast⟩ := hrows.row e he k hk
    exact ⟨m, e', hm, hle, h.at hat, hsame, fun m' e'' hat' hle' =>
      hlast m' e'' (hold m' e'' k hat' hle') hle'⟩
  · intro m e k hat hm
    exact hrows.complete m e k (hold m e k hat hm) hm

/-- A new event is beyond what the rows of a key have taken up. -/
theorem Slice.Follows.extend (hlog : L.Numbered head) (hhead : 0 ≤ head) (hext : L.Extends L' head)
    (hn : n ≤ head) (h : s.Follows L n key) : s.Follows L' n key := by
  have hcounter : ∀ r, s.record = some r → r.sourceCounter ≤ head := by
    intro r hr
    rcases h.reached r hr with hzero | ⟨m, e, hat, hle⟩
    · omega
    · have := hlog.range m e hat.1
      omega
  refine ⟨?_, ?_, ?_, ?_, ?_, ?_⟩
  · intro m e hat hm
    rcases hext.new m e hat.1 with hold | rfl
    · exact h.passed m e ⟨hold, hat.2⟩ hm
    · omega
  · intro r hr hsettled
    rcases h.shown r hr hsettled with hexact | ⟨m, e, hat, hlt, hrevision⟩
    · exact .inl (hexact.extend hext)
    · exact .inr ⟨m, e, hext.at hat, hlt, hrevision⟩
  · intro r hr
    rcases h.reached r hr with hzero | ⟨m, e, hat, hle⟩
    · exact .inl hzero
    · exact .inr ⟨m, e, hext.at hat, hle⟩
  · intro r id o m e hr hop hopen hat hoperation
    rcases hext.new m e hat with hold | rfl
    · exact h.answers r id o m e hr hop hopen hold hoperation
    · have := hcounter r hr
      omega
  · intro r id conflict hr hconflict hopen
    exact (h.evidence r id conflict hr hconflict hopen).extend hext
  · intro id d hd
    exact hext.old id _ (h.deferred id d hd)

/-! ## Refused writes -/

/-- As long as a write is open, the evidence against it is not older than its record. -/
def Slice.Holds (L : Log) (key : Json) (operation : Uuid) (evidence : Event) (s : Slice) : Prop :=
  ∀ r o, s.record = some r → s.ops operation = some o → o.state.isOpen = true →
    Evidence L key r.sourceCounter evidence

theorem Slice.Quiet.holds (h : s.Quiet) : s.Holds L key operation evidence := by
  intro r o _ hop hopen
  rw [h.idle operation o hop] at hopen
  cases hopen

theorem Progress.holds (h : Progress L D n n' key s s') (htidy : s'.Tidy key m)
    (hold : ¬ D operation) (hs : s.Holds L key operation evidence) :
    s'.Holds L key operation evidence := by
  cases h with
  | settles h => exact h.quiet.holds
  | keeps h =>
    intro r o hr hop hopen
    cases h.record.symm.trans hr
    rcases h.ops operation o hop hopen with ⟨r₀, o₀, hr₀, hop₀, hopen₀, _⟩ | hnew
    · rw [h.counter r₀ hr₀]
      exact hs r₀ o₀ hr₀ hop₀ hopen₀
    · rw [htidy.op_id operation o hop] at hnew
      exact absurd hnew hold
  | requeues h₁ h =>
    intro r o hr hop hopen
    rcases h.ops operation o hop hopen with ⟨r₀, o₀, _, hop₀, hopen₀, _⟩ | hnew
    · rw [h₁.quiet.idle operation o₀ hop₀] at hopen₀
      cases hopen₀
    · rw [htidy.op_id operation o hop] at hnew
      exact absurd hnew hold

theorem Slice.Holds.extend (hext : L.Extends L' head) (h : s.Holds L key operation evidence) :
    s.Holds L' key operation evidence :=
  fun r o hr hop hopen => (h r o hr hop hopen).extend hext

/-! ## Transitions -/

/-- The data of what happens come from the log. -/
def Act.From (L : Log) (v : View) : Act → Prop
  | .move key cause => cause.From L key (v.slices key)
  | .resume => True
  | .publish rows seq => Captures L rows seq

/-- The uuids that an act brings in. -/
def Act.Draws : Act → Uuid → Prop
  | .move _ cause, id => cause.Draws id
  | _, _ => False

/-- Every key follows the log. -/
structure View.Sound (L : Log) (v : View) : Prop where
  tidy : v.Tidy
  agrees : v.Agrees
  follows : ∀ key, (v.slices key).Follows L v.position key

theorem Slice.Follows.reschedule (h : s.Follows L n key) (now : Int) :
    (s.reschedule now).Follows L n key := by
  refine ⟨h.passed, h.shown, h.reached, ?_, h.evidence, h.deferred⟩
  intro r id o m e hr hop hopen hat hoperation
  obtain ⟨o₀, hop₀, hsame⟩ := Slice.reschedule_ops hop
  rw [hsame] at hopen hoperation
  exact h.answers r id o₀ m e hr hop₀ hopen hat hoperation

/-- An event of another key only moves the position. -/
theorem Slice.Follows.advance {k : Json} (h : s.Follows L n k) {t t' : Slice}
    (hmove : Move key cause t t') (hfrom : cause.From L key t) (hposition : cause.Advances n n')
    (hk : k ≠ key) : s.Follows L n' k := by
  cases cause with
  | feed _ e =>
    obtain ⟨hnext, rfl⟩ := hposition
    refine h.mono ?_
    intro m e' hat hm
    by_contra hlt
    obtain rfl : m = n' := by omega
    have hsame : e' = e := Option.some.inj (hat.1.symm.trans hfrom)
    have hkey := hat.2
    rw [hsame, hmove.feed_key.1] at hkey
    exact hk (Option.some.inj hkey).symm
  | client | queue | conflict | outcome | resolve =>
    cases hposition
    exact h

variable {act : Act} {v v' : View} {head : Int}

theorem Transition.sound (hlog : L.Numbered head) (h : Transition act v v')
    (hfrom : act.From L v) (hv : v.Sound L) : v'.Sound L := by
  have hcurrent : act.Current v := by
    cases act with
    | move key => exact (hv.follows key).current hfrom
    | resume | publish => trivial
  refine ⟨h.tidy hv.tidy, h.agrees hv.agrees hcurrent, ?_⟩
  intro k
  cases h with
  | @move _ key _ s n hposition hmove =>
    by_cases hk : k = key
    · subst hk
      simp only [Function.update_self]
      exact (hmove.progress hlog hposition (hv.tidy k) (hv.agrees k) (hv.follows k)
        hfrom).follows hlog (fun _ => hfrom.unused) (hv.follows k)
    · simp only [Function.update_of_ne hk]
      exact (hv.follows k).advance hmove hfrom hposition hk
  | resume => exact (hv.follows k).reschedule _
  | publish _ hsettled hslices =>
    exact (hslices k).follows hlog hfrom (hsettled k) (hv.agrees k) (hv.follows k)

theorem Transition.holds (hlog : L.Numbered head) (h : Transition act v v') (hfrom : act.From L v)
    (hv : v.Sound L) (hold : ¬ act.Draws operation) {k : Json}
    (hk : (v.slices k).Holds L k operation evidence) :
    (v'.slices k).Holds L k operation evidence := by
  have htidy := h.tidy hv.tidy k
  cases h with
  | @move _ key _ s n hposition hmove =>
    by_cases hkey : k = key
    · subst hkey
      simp only [Function.update_self] at htidy ⊢
      exact (hmove.progress hlog hposition (hv.tidy k) (hv.agrees k) (hv.follows k)
        hfrom).holds htidy hold hk
    · simp only [Function.update_of_ne hkey]
      exact hk
  | resume =>
    intro r o hr hop hopen
    obtain ⟨o₀, hop₀, hsame⟩ := Slice.reschedule_ops hop
    rw [hsame] at hopen
    exact hk r o₀ hr hop₀ hopen
  | publish _ hsettled hslices => exact ((hslices k).quiet (hsettled k) (hv.agrees k)).holds

end NoizuMcp.Sync
