import NoizuMcp.Sync.LocalRevisions

/-!
# Records and queue

The state of a record and the state of its open write say the same thing: a pending
record has one write that may still be sent, a blocked or conflicting one has a write in
that state, and a clean record or a tombstone has none and nothing left to apply.
`Slice.Agrees` is this for the rows of one key, in the form that the moves keep. One move
does not keep it: an event that answers the delete of a record and that the record has
already passed leaves the record clean with its deleted flag set.
-/

set_option autoImplicit false

namespace NoizuMcp.Sync

open Foundation (Keyed)

open Foundation.Runs (run All)

open Protocol (Json)

variable {b : Binding} {c c' : Cache} {key : Json} {r r' : Record} {e : Event} {s s' : Slice}
  {o o' : Outbox}

/-! ## The rows of one key -/

namespace Slice

/-- The one open write. -/
structure Sole (s : Slice) (o : Outbox) : Prop where
  row : s.ops o.operationId = some o
  opened : o.state.isOpen = true
  unique : ∀ id o', s.ops id = some o' → o'.state.isOpen = true → id = o.operationId

/-- No conflict is open. -/
def Closed (s : Slice) : Prop :=
  ∀ id conflict, s.conflicts id = some conflict → conflict.state ≠ .open

/-- Nothing is open and nothing is left to apply. -/
structure Quiet (s : Slice) : Prop where
  idle : s.Idle
  closed : s.Closed
  drained : ∀ e, ¬ s.Waiting e

/-- The one open conflict, of the write `o`. -/
structure Disputed (s : Slice) (o : Outbox) (conflict : Conflict) : Prop where
  row : s.conflicts conflict.id = some conflict
  opened : conflict.state = .open
  operation : conflict.operationId = o.operationId
  unique : ∀ id other, s.conflicts id = some other → other.state = .open → id = conflict.id

end Slice

/-- The record shows a version of the source: a tombstone just if it is deleted. -/
structure Record.Plain (r : Record) : Prop where
  settled : r.state.settled = true
  deleted : r.state = .tombstone ↔ r.deleted = true

/-- The record, the queue, the conflicts and the events set aside agree. -/
inductive Slice.Agrees (s : Slice) : Prop where
  | absent (hrecord : s.record = none) (hquiet : s.Quiet)
  | settled {r : Record} (hrecord : s.record = some r) (hplain : r.Plain) (hquiet : s.Quiet)
  | pending {r : Record} {o : Outbox} (hrecord : s.record = some r) (hstate : r.state = .pending)
      (hsole : s.Sole o) (hlive : o.state.isLive = true)
      (hrevision : o.queuedLocalRevision = r.localRevision) (hclosed : s.Closed)
  | blocked {r : Record} {o : Outbox} (hrecord : s.record = some r) (hstate : r.state = .blocked)
      (hsole : s.Sole o) (hblocked : o.state = .blocked) (hclosed : s.Closed)
  | conflict {r : Record} {o : Outbox} {conflict : Conflict} (hrecord : s.record = some r)
      (hstate : r.state = .conflict) (hsole : s.Sole o) (hconflict : o.state = .conflict)
      (hdisputed : s.Disputed o conflict)

theorem OutboxState.open_of_live {state : OutboxState} (h : state.isLive = true) :
    state.isOpen = true := by
  cases state <;> first | rfl | cases h

theorem Slice.Sole.eq (h : s.Sole o) (hop : s.ops o'.operationId = some o')
    (hopen : o'.state.isOpen = true) : o' = o := by
  have hid := h.unique _ o' hop hopen
  rw [hid, h.row] at hop
  exact (Option.some.inj hop).symm

/-- A record with a write that may still be sent is pending. -/
theorem Slice.Agrees.of_live (h : s.Agrees) (hop : s.ops o.operationId = some o)
    (hlive : o.state.isLive = true) :
    ∃ r, s.record = some r ∧ r.state = .pending ∧ s.Sole o ∧
      o.queuedLocalRevision = r.localRevision ∧ s.Closed := by
  have hopen := OutboxState.open_of_live hlive
  cases h with
  | absent _ hquiet | settled _ _ hquiet =>
    rw [hquiet.idle _ o hop] at hopen
    cases hopen
  | pending hrecord hstate hsole _ hrevision hclosed =>
    cases hsole.eq hop hopen
    exact ⟨_, hrecord, hstate, hsole, hrevision, hclosed⟩
  | blocked _ _ hsole hstate _ | conflict _ _ hsole hstate _ =>
    cases hsole.eq hop hopen
    rw [hstate] at hlive
    cases hlive

variable {conflict : Conflict} {events : List Event} {now seq : Int} {v : View}
  {nextCursor : Option Cursor}

/-- A record with an open conflict is in conflict. -/
theorem Slice.Agrees.of_disputed (h : s.Agrees) {id : Uuid}
    (hconflict : s.conflicts id = some conflict) (hopen : conflict.state = .open) :
    ∃ o conflict', s.Sole o ∧ s.Disputed o conflict' ∧ id = conflict'.id := by
  cases h with
  | absent _ hquiet | settled _ _ hquiet => exact absurd hopen (hquiet.closed id conflict hconflict)
  | pending _ _ _ _ _ hclosed | blocked _ _ _ _ hclosed =>
    exact absurd hopen (hclosed id conflict hconflict)
  | conflict _ _ hsole _ hdisputed =>
    exact ⟨_, _, hsole, hdisputed, hdisputed.unique id conflict hconflict hopen⟩

/-- A record without an open write, or none at all. -/
theorem Slice.Agrees.of_idle (h : s.Agrees) (hidle : s.Idle) : s.Quiet := by
  have hnone : ∀ o, ¬ s.Sole o := by
    intro o hsole
    have hopen := hsole.opened
    rw [hidle _ o hsole.row] at hopen
    cases hopen
  cases h with
  | absent _ hquiet | settled _ _ hquiet => exact hquiet
  | pending _ _ hsole | blocked _ _ hsole | conflict _ _ hsole => exact absurd hsole (hnone _)

/-- A settled record agrees with an idle queue. -/
theorem Slice.Agrees.of_settled (h : s.Agrees) (hrecord : s.record = some r)
    (hsettled : r.state.settled = true) : r.Plain ∧ s.Quiet := by
  cases h with
  | absent hnone => cases hnone.symm.trans hrecord
  | settled hsome hplain hquiet =>
    cases hsome.symm.trans hrecord
    exact ⟨hplain, hquiet⟩
  | pending hsome hstate | blocked hsome hstate | conflict hsome hstate =>
    cases hsome.symm.trans hrecord
    rw [hstate] at hsettled
    cases hsettled

/-! ## Updates -/

theorem Slice.Sole.setRecord (h : s.Sole o) : (s.setRecord r).Sole o :=
  ⟨h.row, h.opened, h.unique⟩

/-- A new version of the open write that is still open. -/
theorem Slice.Sole.update (h : s.Sole o) (o' : Outbox) (hid : o'.operationId = o.operationId)
    (hopen : o'.state.isOpen = true) : (s.setOperation o').Sole o' := by
  refine ⟨setOperation_ops.mpr (.inl ⟨rfl, rfl⟩), hopen, ?_⟩
  intro id other hother hother_open
  rcases setOperation_ops.mp hother with ⟨heq, _⟩ | ⟨_, hold⟩
  · exact heq
  · rw [hid]
    exact h.unique id other hold hother_open

/-- The open write is closed. -/
theorem Slice.Sole.close (h : s.Sole o) (o' : Outbox) (hid : o'.operationId = o.operationId)
    (hclosed : o'.state.isOpen = false) : (s.setOperation o').Idle := by
  intro id other hother
  rcases setOperation_ops.mp hother with ⟨_, rfl⟩ | ⟨hne, hold⟩
  · exact hclosed
  · refine eq_false_of_ne_true fun hopen => hne ?_
    rw [hid]
    exact h.unique id other hold hopen

/-- The first open write. -/
theorem Slice.Idle.sole (h : s.Idle) (hopen : o.state.isOpen = true) :
    (s.setOperation o).Sole o := by
  refine ⟨setOperation_ops.mpr (.inl ⟨rfl, rfl⟩), hopen, ?_⟩
  intro id other hother hother_open
  rcases setOperation_ops.mp hother with ⟨heq, _⟩ | ⟨_, hold⟩
  · exact heq
  · rw [h id other hold] at hother_open
    cases hother_open

theorem Slice.markApplied_drained (now : Int) : ¬ (s.markApplied now).Waiting e := by
  rintro ⟨id, row, hrow, hnone, _⟩
  obtain ⟨d, _, rfl⟩ := Option.map_eq_some_iff.mp hrow
  split at hnone
  case isTrue => cases hnone
  case isFalse happlied => exact happlied hnone

/-- The conflicts after one has been resolved. -/
theorem Slice.Disputed.resolve (h : s.Disputed o conflict) (now : Int) :
    (s.resolved o' conflict now).Closed := by
  intro id other hother hopen
  rcases setConflict_conflicts.mp hother with ⟨_, rfl⟩ | ⟨hne, hold⟩
  · cases hopen
  · exact hne (h.unique id other hold hopen)

theorem Record.shows_plain (counter : Int) : (r.shows e counter).Plain := by
  unfold Record.shows Record.showing Record.remote
  cases e.removes with
  | false | true => exact ⟨rfl, by simp⟩

theorem Applies.plain {old : Option Record} (h : Applies key e old r)
    (hold : ∀ r₀, old = some r₀ → r₀.Plain) : r.Plain := by
  cases h with
  | insert | newer => exact Record.shows_plain _
  | older => exact hold _ rfl

theorem AppliesAll.plain (h : AppliesAll key events r r') (hr : r.Plain) : r'.Plain := by
  induction h with
  | nil => exact hr
  | cons hfirst _ ih =>
    refine ih (hfirst.plain ?_)
    rintro _ ⟨⟩
    exact hr

/-! ## Moves -/

/-- An event does not answer the delete of a record that has already passed it. -/
def Cause.Current (s : Slice) : Cause → Prop
  | .feed seq e => ∀ r o, s.record = some r → s.ops o.operationId = some o →
      o.answeredBy r e = true → r.deleted = true → r.sourceCounter < seq
  | _ => True

/-- The row that an event answers, once the event has been applied. -/
theorem Applies.answer_plain (hseq : e.seq = some seq)
    (h : Applies key e (some ({ r with state := .clean } : Record).remote) r')
    (hcurrent : r.deleted = true → r.sourceCounter < seq) : r'.Plain := by
  cases hdeleted : r.deleted with
  | false =>
    refine h.plain ?_
    rintro _ ⟨⟩
    refine ⟨rfl, ?_⟩
    simp [Record.remote, hdeleted]
  | true =>
    cases h with
    | newer => exact Record.shows_plain _
    | older _ hseq' _ hle =>
      cases hseq.symm.trans hseq'
      exact absurd (hcurrent hdeleted) (not_lt.mpr hle)

/-- An event that is applied to a settled record, or to none. -/
theorem Slice.Agrees.applies (h : s.Agrees) (happlies : Applies key e s.record r) :
    (s.setRecord r).Agrees := by
  have hrecord : s.record = none ∨ ∃ r₀, s.record = some r₀ ∧ r₀.state.settled = true := by
    cases hr : s.record with
    | none => exact .inl rfl
    | some r₀ =>
      rw [hr] at happlies
      cases happlies with
      | newer _ _ _ hsettled => exact .inr ⟨r₀, rfl, hsettled⟩
      | older _ _ hsettled => exact .inr ⟨_, rfl, hsettled⟩
  rcases hrecord with hnone | ⟨r₀, hr₀, hsettled⟩
  · have hquiet : s.Quiet := by
      cases h with
      | absent _ hquiet => exact hquiet
      | settled hsome | pending hsome | blocked hsome | conflict hsome =>
        cases hnone.symm.trans hsome
    refine .settled rfl (happlies.plain ?_) ⟨hquiet.idle, hquiet.closed, hquiet.drained⟩
    intro r₀ hr₀
    cases hnone.symm.trans hr₀
  · obtain ⟨hplain, hquiet⟩ := h.of_settled hr₀ hsettled
    refine .settled rfl (happlies.plain ?_) ⟨hquiet.idle, hquiet.closed, hquiet.drained⟩
    intro r₁ hr₁
    cases hr₀.symm.trans hr₁
    exact hplain

/-- What is set aside matters only once the record is settled. -/
theorem Slice.Agrees.setDeferred (h : s.Agrees) {d : Deferred} (hrecord : s.record = some r)
    (hopen : r.state.settled = false) : (s.setDeferred d).Agrees := by
  cases h with
  | absent hnone => cases hnone.symm.trans hrecord
  | settled hsome hplain =>
    cases hsome.symm.trans hrecord
    rw [hplain.settled] at hopen
    cases hopen
  | pending hsome hstate hsole hlive hrevision hclosed =>
    exact .pending hsome hstate ⟨hsole.row, hsole.opened, hsole.unique⟩ hlive hrevision hclosed
  | blocked hsome hstate hsole hblocked hclosed =>
    exact .blocked hsome hstate ⟨hsole.row, hsole.opened, hsole.unique⟩ hblocked hclosed
  | conflict hsome hstate hsole hconflict hdisputed =>
    exact .conflict hsome hstate ⟨hsole.row, hsole.opened, hsole.unique⟩ hconflict
      ⟨hdisputed.row, hdisputed.opened, hdisputed.operation, hdisputed.unique⟩

/-- The open conflict of a record and its write. -/
theorem Slice.Agrees.of_open_conflict (h : s.Agrees)
    (hconflict : s.conflicts conflict.id = some conflict) (hopen : conflict.state = .open)
    (hop : s.ops conflict.operationId = some o) : s.Sole o ∧ s.Disputed o conflict := by
  obtain ⟨o', conflict', hsole, hdisputed, hid⟩ := h.of_disputed hconflict hopen
  have heq : conflict' = conflict := by
    have hrow := hdisputed.row
    rw [← hid, hconflict] at hrow
    exact (Option.some.inj hrow).symm
  subst heq
  have hop' : o' = o := by
    rw [hdisputed.operation, hsole.row] at hop
    exact Option.some.inj hop
  subst hop'
  exact ⟨hsole, hdisputed⟩

theorem Move.agrees {cause : Cause} (h : Move key cause s s') (hs : s.Agrees)
    (hcurrent : cause.Current s) : s'.Agrees := by
  cases h with
  | write hqueues _ hidle =>
    have hquiet := hs.of_idle hidle
    exact .pending rfl hqueues.state (Slice.Idle.sole hidle (by rw [hqueues.op_state]; rfl))
      (by rw [hqueues.op_state]; rfl) hqueues.revision hquiet.closed
  | @claim _ o now lease hop hlive =>
    obtain ⟨r, hrecord, hstate, hsole, hrevision, hclosed⟩ := hs.of_live hop hlive
    exact .pending hrecord hstate (hsole.update (o.claimed now lease) rfl rfl) rfl hrevision
      hclosed
  | @retry _ o now hop hflight =>
    obtain ⟨r, hrecord, hstate, hsole, hrevision, hclosed⟩ :=
      hs.of_live hop (OutboxState.live_of_inFlight hflight)
    exact .pending hrecord hstate (hsole.update (o.failed now .unknown) rfl rfl) rfl hrevision
      hclosed
  | @exhaust _ o r hop hlive =>
    obtain ⟨_, _, _, hsole, _, hclosed⟩ := hs.of_live hop hlive
    exact .blocked rfl rfl (hsole.update o.blocked rfl rfl).setRecord rfl hclosed
  | @block _ o r now hop hlive =>
    obtain ⟨_, _, _, hsole, _, hclosed⟩ := hs.of_live hop hlive
    exact .blocked rfl rfl (hsole.update (o.failed now .blocked) rfl rfl).setRecord rfl hclosed
  | @conflict _ o r conflict hop hflight _ _ _ hopen hoperation =>
    obtain ⟨_, _, _, hsole, _, hclosed⟩ := hs.of_live hop (OutboxState.live_of_inFlight hflight)
    have hsole : (s.setConflict conflict).Sole o := ⟨hsole.row, hsole.opened, hsole.unique⟩
    refine .conflict rfl rfl (hsole.update o.conflicted rfl rfl).setRecord rfl
      ⟨Slice.setConflict_conflicts.mpr (.inl ⟨rfl, rfl⟩), hopen, hoperation, ?_⟩
    intro id other hother hother_open
    rcases Slice.setConflict_conflicts.mp hother with ⟨heq, _⟩ | ⟨_, hold⟩
    · exact heq
    · exact absurd hother_open (hclosed id other hold)
  | @settle _ o _ _ _ _ _ hop hflight _ _ _ _ _ _ hdrained =>
    obtain ⟨_, _, _, hsole, _, hclosed⟩ := hs.of_live hop (OutboxState.live_of_inFlight hflight)
    exact .settled rfl (hdrained.plain (Record.shows_plain _))
      ⟨hsole.close o.acknowledged rfl rfl, hclosed, fun _ => Slice.markApplied_drained _⟩
  | feed _ happlies => exact hs.applies happlies
  | @answer _ o _ _ _ _ _ _ _ hseq hop hflight hsent hrecord hrevision hoperation happlies _
      hdrained =>
    obtain ⟨_, _, _, hsole, _, hclosed⟩ := hs.of_live hop (OutboxState.live_of_inFlight hflight)
    have hanswered := hcurrent _ _ hrecord hop
      (by simp [Outbox.answeredBy, hflight, hsent, hoperation, hrevision])
    exact .settled rfl (hdrained.plain (happlies.answer_plain hseq hanswered))
      ⟨hsole.close o.acknowledged rfl rfl, hclosed, fun _ => Slice.markApplied_drained _⟩
  | defer _ _ hrecord hopen => exact hs.setDeferred hrecord hopen
  | @accept _ o r _ _ _ _ hconflict hopen hop =>
    obtain ⟨hsole, hdisputed⟩ := hs.of_open_conflict hconflict hopen hop
    exact .settled rfl (Record.shows_plain _)
      ⟨hsole.close o.resolved rfl rfl, hdisputed.resolve _, fun _ => Slice.markApplied_drained _⟩
  | @requeue _ o o' r _ _ _ _ hconflict hopen hop _ _ _ _ _ _ hidle _ hstate _ hqueued =>
    obtain ⟨_, hdisputed⟩ := hs.of_open_conflict hconflict hopen hop
    have hlive : o'.state.isLive = true := by rw [hstate]; rfl
    have hsole : (s.setOperation o.resolved).Idle := hidle
    refine .pending rfl rfl (Slice.Idle.sole hsole (OutboxState.open_of_live hlive)) hlive ?_
      (hdisputed.resolve _)
    rw [hqueued]
    exact (Int.add_assoc r.localRevision 1 1).symm

theorem Published.agrees {rows : List Event} (h : Published rows seq key s s')
    (hsettled : ∀ r, s.record = some r → r.state.settled = true) (hs : s.Agrees) : s'.Agrees := by
  cases h with
  | row _ _ happlies => exact hs.applies happlies
  | drop _ hrecord =>
    obtain ⟨_, hquiet⟩ := hs.of_settled hrecord (hsettled _ hrecord)
    exact .settled rfl ⟨rfl, by simp [Record.dropped]⟩
      ⟨hquiet.idle, hquiet.closed, hquiet.drained⟩
  | keep => exact hs

theorem Slice.reschedule_ops {id : Uuid} (h : (s.reschedule now).ops id = some o') :
    ∃ o, s.ops id = some o ∧ o' = { o with nextAttemptAt := o'.nextAttemptAt } := by
  obtain ⟨o, ho, rfl⟩ := Option.map_eq_some_iff.mp h
  refine ⟨o, ho, ?_⟩
  split <;> rfl

theorem Slice.Sole.reschedule (h : s.Sole o) (now : Int) :
    ∃ o', (s.reschedule now).Sole o' ∧ o'.state = o.state ∧ o'.operationId = o.operationId ∧
      o'.queuedLocalRevision = o.queuedLocalRevision := by
  have hrow : (s.reschedule now).ops o.operationId =
      some (if o.state = .unknown then { o with nextAttemptAt := now } else o) :=
    Option.map_eq_some_iff.mpr ⟨o, h.row, rfl⟩
  have hunique : ∀ id o', (s.reschedule now).ops id = some o' → o'.state.isOpen = true →
      id = o.operationId := by
    intro id o' ho' hopen
    obtain ⟨old, hold, hsame⟩ := reschedule_ops ho'
    rw [hsame] at hopen
    exact h.unique id old hold hopen
  split at hrow
  · exact ⟨{ o with nextAttemptAt := now }, ⟨hrow, h.opened, hunique⟩, rfl, rfl, rfl⟩
  · exact ⟨o, ⟨hrow, h.opened, hunique⟩, rfl, rfl, rfl⟩

theorem Slice.Quiet.reschedule (h : s.Quiet) (now : Int) : (s.reschedule now).Quiet := by
  refine ⟨?_, h.closed, h.drained⟩
  intro id o ho
  obtain ⟨old, hold, hsame⟩ := reschedule_ops ho
  rw [hsame]
  exact h.idle id old hold

theorem Slice.Agrees.reschedule (h : s.Agrees) (now : Int) : (s.reschedule now).Agrees := by
  cases h with
  | absent hnone hquiet => exact .absent hnone (hquiet.reschedule now)
  | settled hrecord hplain hquiet => exact .settled hrecord hplain (hquiet.reschedule now)
  | pending hrecord hstate hsole hlive hrevision hclosed =>
    obtain ⟨o', hsole', hsame, _, hqueued⟩ := hsole.reschedule now
    exact .pending hrecord hstate hsole' (hsame ▸ hlive) (hqueued.trans hrevision) hclosed
  | blocked hrecord hstate hsole hblocked hclosed =>
    obtain ⟨o', hsole', hsame, _, _⟩ := hsole.reschedule now
    exact .blocked hrecord hstate hsole' (hsame.trans hblocked) hclosed
  | conflict hrecord hstate hsole hconflict hdisputed =>
    obtain ⟨o', hsole', hsame, hid, _⟩ := hsole.reschedule now
    exact .conflict hrecord hstate hsole' (hsame.trans hconflict)
      ⟨hdisputed.row, hdisputed.opened, hdisputed.operation.trans hid.symm, hdisputed.unique⟩

/-! ## Transitions -/

/-- Every record agrees with the queue of its key. -/
def View.Agrees (v : View) : Prop := ∀ key, (v.slices key).Agrees

/-- No event of the act answers a delete that has already passed it. -/
def Act.Current (v : View) : Act → Prop
  | .move key cause => cause.Current (v.slices key)
  | _ => True

theorem Transition.agrees {act : Act} {v' : View} (h : Transition act v v') (hv : v.Agrees)
    (hcurrent : act.Current v) : v'.Agrees := by
  intro k
  cases h with
  | @move _ key _ s n _ hmove =>
    by_cases hk : k = key
    · subst hk
      simp only [Function.update_self]
      exact hmove.agrees (hv k) hcurrent
    · simp only [Function.update_of_ne hk]
      exact hv k
  | resume => exact (hv k).reschedule _
  | publish _ hsettled hslices => exact (hslices k).agrees (hsettled k) (hv k)

/-! ## Calls -/

/-- A page has no event of the feed that answers the delete of a record that has already
passed it. -/
def Call.current (c : Cache) : Call → Bool
  | .apply _ events _ => events.all fun e =>
    (e.key.bind fun key => c.records.lookup key).all fun r =>
      !(r.deleted && !r.state.settled &&
        (c.openOperation r.key).any (fun o => o.answeredBy r e) &&
          e.seq.any fun seq => c.position < seq ∧ seq ≤ r.sourceCounter)
  | _ => true

theorem Slice.Agrees.openOperation (h : (c.slice key).Agrees)
    (hop : (c.slice key).ops o.operationId = some o) (hlive : o.state.isLive = true) :
    c.openOperation key = some o := by
  obtain ⟨_, _, _, hsole, _, _⟩ := h.of_live hop hlive
  cases hfind : c.openOperation key with
  | none =>
    have hopen := OutboxState.open_of_live hlive
    rw [openOperation_eq_none.mp hfind _ o hop] at hopen
    cases hopen
  | some =>
    obtain ⟨hop', hopen'⟩ := openOperation_eq_some hfind
    rw [hsole.eq hop' hopen']

/-- What a page has not touched yet: a record is settled, or as it was with its writes. -/
def Kept (c : Cache) (v : View) : Prop :=
  ∀ key r, (v.slices key).record = some r → r.state.settled = true ∨
    (c.records.lookup key = some r ∧ (v.slices key).ops = (c.slice key).ops)

theorem AppliesAll.settled (h : AppliesAll key events r r') (hr : r.state.settled = true) :
    r'.state.settled = true := by
  induction h with
  | nil => exact hr
  | cons hfirst _ ih => exact ih hfirst.settled

theorem Move.feed_key (h : Move key (.feed seq e) s s') : e.key = some key ∧ e.seq = some seq := by
  cases h with
  | feed hseq happlies | answer hseq _ _ _ _ _ _ happlies => exact ⟨happlies.event_key, hseq⟩
  | defer hkey hseq => exact ⟨hkey, hseq⟩

theorem Move.kept (h : Move key (.feed seq e) s s') :
    (∃ r, s'.record = some r ∧ r.state.settled = true) ∨ s'.record = s.record ∧ s'.ops = s.ops := by
  cases h with
  | feed _ happlies => exact .inl ⟨_, rfl, happlies.settled⟩
  | answer _ _ _ _ _ _ _ happlies _ hdrained =>
    exact .inl ⟨_, rfl, hdrained.settled happlies.settled⟩
  | defer => exact .inr ⟨rfl, rfl⟩

/-- The page of a call is current at each of its events. -/
theorem current_of_kept (hc : c.view.Agrees)
    (hcurrent : Call.current c (.apply now events nextCursor) = true) (hv : v.Agrees)
    (hkept : Kept c v) (he : e ∈ events) (hkey : e.key = some key) (hseq : e.seq = some seq)
    (hnext : c.position < seq) : (Cause.feed seq e).Current (v.slices key) := by
  intro r o hrecord hop hanswered hdeleted
  have hflight : o.state.inFlight = true := by
    unfold Outbox.answeredBy at hanswered
    simp only [Bool.and_eq_true] at hanswered
    exact hanswered.1.1.1
  have hlive := OutboxState.live_of_inFlight hflight
  obtain ⟨r', hr', hpending, _⟩ := (hv key).of_live hop hlive
  cases hrecord.symm.trans hr'
  rcases hkept key r hrecord with hsettled | ⟨hr, hops⟩
  · rw [hpending] at hsettled
    cases hsettled
  · rw [hops] at hop
    have hopen := Slice.Agrees.openOperation (hc key) hop hlive
    have hown : r.key = key := Keyed.lookup_key hr
    have hevent := List.all_eq_true.mp hcurrent e he
    rw [hkey, Option.bind_some, hr, Option.all_some, hown, hopen, hseq] at hevent
    by_contra hpassed
    simp [hdeleted, hpending, RecordState.settled, hanswered, hnext, not_lt.mp hpassed] at hevent

/-- Only a page has events of the feed. -/
theorem Call.admits_current {call : Call} {act : Act} (h : call.admits b act)
    (hcall : ∀ now events nextCursor, call ≠ .apply now events nextCursor) : act.Current v := by
  cases call with
  | apply now events nextCursor => exact absurd rfl (hcall now events nextCursor)
  | put | remove | resume =>
    cases h
    trivial
  | writeRows =>
    obtain ⟨_, _, _, rfl⟩ := h
    trivial
  | resolve | claim | ack =>
    obtain ⟨_, rfl⟩ := h
    trivial
  | fail =>
    obtain ⟨_, rfl | ⟨_, rfl⟩⟩ := h
    · trivial
    · trivial
  | publish =>
    obtain ⟨_, _, rfl⟩ := h
    trivial
  | pause => cases h

/-- A page that is current keeps the agreement at each of its events. -/
theorem page_agrees (hc : c.view.Agrees)
    (hcurrent : Call.current c (.apply now events nextCursor) = true)
    (h : Path (Feeds events) c.view v) : v.Agrees := by
  have hinvariant := h.invariant (fun v => v.Agrees ∧ Kept c v ∧ c.position ≤ v.position) ?_
    ⟨hc, fun key r hr => .inr ⟨hr, rfl⟩, le_refl _⟩
  · exact hinvariant.1
  rintro _ v v' ⟨key, seq, e, he, rfl⟩ htransition ⟨hv, hkept, hle⟩
  have hagrees := fun hnow => htransition.agrees hv hnow
  cases htransition with
  | @move _ _ _ s n hposition hmove =>
    obtain ⟨hkey, hseq⟩ := hmove.feed_key
    obtain ⟨hnext, rfl⟩ := hposition
    have hnow := current_of_kept hc hcurrent hv hkept he hkey hseq (by omega)
    refine ⟨hagrees hnow, ?_, by simp only; omega⟩
    intro k r hr
    by_cases hk : k = key
    · subst hk
      simp only [Function.update_self] at hr ⊢
      rcases hmove.kept with ⟨r', hr', hsettled⟩ | ⟨hrecord, hops⟩
      · cases hr'.symm.trans hr
        exact .inl hsettled
      · rw [hops]
        exact hkept k r (hrecord ▸ hr)
    · simp only [Function.update_of_ne hk] at hr ⊢
      exact hkept k r hr

/-- A call that is current keeps the agreement. -/
theorem step_agrees {call : Call} {reply : Except Raised Reply} (htidy : c.view.Tidy)
    (hc : c.view.Agrees) (hcurrent : call.current c = true)
    (h : c.step b call = some (c', reply)) : c'.view.Agrees := by
  have hpath := Cache.step_path htidy h
  by_cases happly : ∃ now events nextCursor, call = .apply now events nextCursor
  · obtain ⟨now, events, nextCursor, rfl⟩ := happly
    exact page_agrees hc hcurrent hpath
  · refine hpath.invariant View.Agrees ?_ hc
    intro act v v' hadmits htransition hv
    refine htransition.agrees hv (Call.admits_current hadmits ?_)
    intro now events nextCursor heq
    exact happly ⟨now, events, nextCursor, heq⟩

/-! ## The tables -/

/-- Exactly one row has the property. -/
def Only {α : Type} (rows : List α) (p : α → Prop) (a : α) : Prop :=
  a ∈ rows ∧ p a ∧ ∀ a' ∈ rows, p a' → a' = a

/-- The state of a record says what the queue, the conflicts and the events set aside have
of its key. -/
structure Cache.RecordAgrees (c : Cache) (r : Record) : Prop where
  pending : r.state = .pending ↔ ∃ o, Only c.outbox.rows
    (fun o => o.key = r.key ∧ o.state.isLive = true) o ∧ o.queuedLocalRevision = r.localRevision
  conflict : r.state = .conflict ↔ ∃ o, Only c.outbox.rows
    (fun o => o.key = r.key ∧ o.state.isOpen = true) o ∧ o.state = .conflict ∧
      ∃ conflict, Only c.conflicts.rows
        (fun row => row.operationId = o.operationId ∧ row.state = .open) conflict
  blocked : r.state = .blocked ↔ ∃ o, Only c.outbox.rows
    (fun o => o.key = r.key ∧ o.state.isOpen = true) o ∧ o.state = .blocked
  settled : r.state.settled = true →
    (∀ o ∈ c.outbox.rows, o.key = r.key → o.state.isOpen = false) ∧
      (r.state = .tombstone ↔ r.deleted = true) ∧
      ∀ d ∈ c.deferred.rows, d.key = r.key → d.appliedAt ≠ none

theorem slice_ops_of_mem (h : o ∈ c.outbox.rows) (hkey : o.key = key) :
    (c.slice key).ops o.operationId = some o := slice_ops_iff.mpr ⟨Keyed.mem_rows.mp h, hkey⟩

theorem Slice.Sole.only (h : (c.slice key).Sole o) :
    Only c.outbox.rows (fun o => o.key = key ∧ o.state.isOpen = true) o := by
  obtain ⟨hlookup, hkey⟩ := slice_ops_iff.mp h.row
  refine ⟨Keyed.mem_of_lookup hlookup, ⟨hkey, h.opened⟩, ?_⟩
  intro o' ho' ⟨hkey', hopen'⟩
  exact h.eq (slice_ops_of_mem ho' hkey') hopen'

theorem Slice.Disputed.only (htidy : c.view.Tidy) (hsole : (c.slice key).Sole o)
    (h : (c.slice key).Disputed o conflict) :
    Only c.conflicts.rows (fun row => row.operationId = o.operationId ∧ row.state = .open)
      conflict := by
  obtain ⟨hlookup, _⟩ := slice_conflicts_iff.mp h.row
  refine ⟨Keyed.mem_of_lookup hlookup, ⟨h.operation, h.opened⟩, ?_⟩
  intro row hrow ⟨hoperation, hopen⟩
  have hrow := Keyed.mem_rows.mp hrow
  -- the row is one of the same key, since its write is
  obtain ⟨o', ho'⟩ := (htidy row.key).conflicts row.id row (slice_conflicts_iff.mpr ⟨hrow, rfl⟩)
  obtain ⟨hop', hkey'⟩ := slice_ops_iff.mp ho'
  obtain ⟨hop, hkey⟩ := slice_ops_iff.mp hsole.row
  rw [hoperation, hop] at hop'
  cases hop'
  have hid := h.unique row.id row (slice_conflicts_iff.mpr ⟨hrow, hkey'.symm.trans hkey⟩) hopen
  rw [hid, hlookup] at hrow
  exact (Option.some.inj hrow).symm

/-- The open write of a record, by the state of the record. -/
theorem Slice.Agrees.of_unsettled (h : s.Agrees) (hrecord : s.record = some r)
    (hopen : r.state.settled = false) : ∃ o, s.Sole o ∧
      ((r.state = .pending ∧ o.state.isLive = true ∧ o.queuedLocalRevision = r.localRevision) ∨
        (r.state = .blocked ∧ o.state = .blocked) ∨
        (r.state = .conflict ∧ o.state = .conflict ∧ ∃ conflict, s.Disputed o conflict)) := by
  cases h with
  | absent hnone => cases hnone.symm.trans hrecord
  | settled hsome hplain =>
    cases hsome.symm.trans hrecord
    rw [hplain.settled] at hopen
    cases hopen
  | pending hsome hstate hsole hlive hrevision =>
    cases hsome.symm.trans hrecord
    exact ⟨_, hsole, .inl ⟨hstate, hlive, hrevision⟩⟩
  | blocked hsome hstate hsole hblocked =>
    cases hsome.symm.trans hrecord
    exact ⟨_, hsole, .inr (.inl ⟨hstate, hblocked⟩)⟩
  | conflict hsome hstate hsole hconflict hdisputed =>
    cases hsome.symm.trans hrecord
    exact ⟨_, hsole, .inr (.inr ⟨hstate, hconflict, _, hdisputed⟩)⟩

theorem recordAgrees_of_settled (hs : (c.slice r.key).Agrees)
    (hrecord : (c.slice r.key).record = some r) (hsettled : r.state.settled = true) :
    c.RecordAgrees r := by
  obtain ⟨hplain, hquiet⟩ := hs.of_settled hrecord hsettled
  have hidle : ∀ o ∈ c.outbox.rows, o.key = r.key → o.state.isOpen = false := by
    intro o ho hkey
    exact hquiet.idle _ o (slice_ops_of_mem ho hkey)
  have hnone : ∀ state : RecordState, state.settled = false → r.state ≠ state := by
    rintro _ hopen rfl
    rw [hsettled] at hopen
    cases hopen
  refine ⟨iff_of_false (hnone _ rfl) ?_, iff_of_false (hnone _ rfl) ?_,
    iff_of_false (hnone _ rfl) ?_, fun _ => ⟨hidle, hplain.deleted, ?_⟩⟩
  · rintro ⟨o, ⟨ho, ⟨hkey, hlive⟩, _⟩, _⟩
    have hopen := OutboxState.open_of_live hlive
    rw [hidle o ho hkey] at hopen
    cases hopen
  on_goal 3 =>
    intro d hd hkey hwaiting
    exact hquiet.drained d.event
      ⟨d.eventId, d, slice_deferred_iff.mpr ⟨Keyed.mem_rows.mp hd, hkey⟩, hwaiting, rfl⟩
  all_goals
    rintro ⟨o, ⟨ho, ⟨hkey, hopen⟩, _⟩, _⟩
    rw [hidle o ho hkey] at hopen
    cases hopen

theorem recordAgrees_of_agrees (htidy : c.view.Tidy) (hc : c.view.Agrees)
    (hr : r ∈ c.records.rows) : c.RecordAgrees r := by
  have hrecord : (c.slice r.key).record = some r := Keyed.mem_rows.mp hr
  cases hsettled : r.state.settled with
  | true => exact recordAgrees_of_settled (hc r.key) hrecord hsettled
  | false =>
    obtain ⟨o, hsole, hcases⟩ := (hc r.key).of_unsettled hrecord hsettled
    have honly := hsole.only
    have hother : ∀ o', Only c.outbox.rows (fun o => o.key = r.key ∧ o.state.isOpen = true) o' →
        o' = o := fun o' ho' => honly.2.2 o' ho'.1 ho'.2.1
    have hlive : ∀ o' ∈ c.outbox.rows, o'.key = r.key ∧ o'.state.isLive = true → o' = o :=
      fun o' ho' hlive => honly.2.2 o' ho' ⟨hlive.1, OutboxState.open_of_live hlive.2⟩
    refine ⟨⟨?_, ?_⟩, ⟨?_, ?_⟩, ⟨?_, ?_⟩, fun htrue => by rw [hsettled] at htrue; cases htrue⟩
    · intro hstate
      rcases hcases with ⟨_, hisLive, hrevision⟩ | ⟨hblocked, _⟩ | ⟨hconflict, _⟩
      · exact ⟨o, ⟨honly.1, ⟨honly.2.1.1, hisLive⟩, hlive⟩, hrevision⟩
      · cases hstate.symm.trans hblocked
      · cases hstate.symm.trans hconflict
    · rintro ⟨o', ⟨ho', hisLive, _⟩, _⟩
      cases hlive o' ho' hisLive
      rcases hcases with ⟨hstate, _⟩ | ⟨_, hblocked⟩ | ⟨_, hconflict, _⟩
      · exact hstate
      · rw [hblocked] at hisLive
        cases hisLive.2
      · rw [hconflict] at hisLive
        cases hisLive.2
    · intro hstate
      rcases hcases with ⟨hpending, _⟩ | ⟨hblocked, _⟩ | ⟨_, hconflict, _, hdisputed⟩
      · cases hstate.symm.trans hpending
      · cases hstate.symm.trans hblocked
      · exact ⟨o, honly, hconflict, _, hdisputed.only htidy hsole⟩
    · rintro ⟨o', ho', hconflict, _⟩
      cases hother o' ho'
      rcases hcases with ⟨_, hisLive, _⟩ | ⟨_, hblocked⟩ | ⟨hstate, _⟩
      · rw [hconflict] at hisLive
        cases hisLive
      · cases hconflict.symm.trans hblocked
      · exact hstate
    · intro hstate
      rcases hcases with ⟨hpending, _⟩ | ⟨_, hblocked⟩ | ⟨hconflict, _⟩
      · cases hstate.symm.trans hpending
      · exact ⟨o, honly, hblocked⟩
      · cases hstate.symm.trans hconflict
    · rintro ⟨o', ho', hblocked⟩
      cases hother o' ho'
      rcases hcases with ⟨_, hisLive, _⟩ | ⟨hstate, _⟩ | ⟨_, hconflict, _⟩
      · rw [hblocked] at hisLive
        cases hisLive
      · exact hstate
      · cases hblocked.symm.trans hconflict

/-! ## Runs -/

theorem agrees_empty : ({} : Cache).view.Agrees := by
  intro key
  refine .absent rfl ⟨?_, ?_, ?_⟩
  · intro id o ho
    cases (slice_ops_iff.mp ho).1
  · intro id conflict hconflict
    cases (slice_conflicts_iff.mp hconflict).1
  · rintro e ⟨id, d, hd, _⟩
    cases (slice_deferred_iff.mp hd).1

/-- In every run in which no page answers the delete of a record with an event that the
record has already passed, the records and the queue agree. -/
theorem records_agree_with_queue (b : Binding) (calls : List Call) {c : Cache}
    {replies : List (Except Raised Reply)}
    (hcurrent : All (Cache.step b) (fun c call => call.current c = true) {} calls)
    (h : run (Cache.step b) {} calls = some (c, replies)) :
    ∀ r ∈ c.records.rows, c.RecordAgrees r := by
  intro r hr
  have hboth := Foundation.Runs.run_invariant_of_all
    (fun c : Cache => c.view.Tidy ∧ c.view.Agrees) ?_ ⟨tidy_empty, agrees_empty⟩ hcurrent h
  · exact recordAgrees_of_agrees hboth.1 hboth.2 hr
  intro c call c' reply ⟨htidy, hc⟩ hcall hstep
  exact ⟨(Cache.step_path htidy hstep).tidy htidy, step_agrees htidy hc hcall hstep⟩

/-- A note is created and delivered. -/
theorem records_agree_with_queue_note : ∃ c replies,
    run (Cache.step notes) {} (noteWritten ++ noteDelivered) = some (c, replies) ∧
      All (Cache.step notes) (fun c call => call.current c = true) {}
        (noteWritten ++ noteDelivered) ∧
      ∀ r ∈ c.records.rows, c.RecordAgrees r := by
  have hcurrent : All (Cache.step notes) (fun c call => call.current c = true) {}
      (noteWritten ++ noteDelivered) := by decide +kernel
  exact ⟨_, _, rfl, hcurrent, records_agree_with_queue notes _ hcurrent rfl⟩

/-- The source acknowledges the note with an event far ahead, and the feed then has the
delete of the note at a number that the record has passed. -/
def noteDeletedBehind : List Call :=
  [.put "a" 0 noteKey (some (note "one")) (some 0),
    .claim 1 (some 30),
    .ack 2 "a" (some 1)
      { key := some noteKey, revision := some "r", value := some (note "one"),
        eventId := .value 100, operationId := some "a" },
    .remove "b" 3 noteKey (some 2),
    .claim 4 (some 30),
    .apply 5
      [{ key := some noteKey, revision := some "s", deleted := .value true, eventId := .value 1,
         operationId := some "b" }]
      (some (.sync "source" 1))]

/-- The record that is left: clean, and deleted. -/
def strandedNote : Record :=
  { key := noteKey, payload := some (note "one"), sourceRevision := some "r", sourceCounter := 100,
    localRevision := 3, deleted := true, state := .clean, lastOrigin := .remote }

/-- The record is deleted and yet clean, where a deleted one has to be a tombstone. -/
theorem stranded_note : ∃ c replies,
    run (Cache.step notes) {} noteDeletedBehind = some (c, replies) ∧
      c.records.rows = [strandedNote] ∧ ¬ c.RecordAgrees strandedNote := by
  refine ⟨_, _, rfl, by decide +kernel, ?_⟩
  intro hagrees
  obtain ⟨_, htombstone, _⟩ := hagrees.settled rfl
  cases htombstone.mpr rfl

end NoizuMcp.Sync
