import NoizuMcp.Sync.CatchUp

/-!
# A write takes effect at most once

The source remembers every operation that it has executed, so that no id has two events.
When a worker reports a conflict, the source has refused the write, and it will refuse it
for ever: the precondition names a revision that is not there any more, or that there be
no record. A request that is still under way, or that another worker sends again, finds
the same refusal. Other writers can only undo this by using the id of the write as their
own.
-/

set_option autoImplicit false

namespace NoizuMcp.Sync

open Foundation (Keyed)

open Foundation.Runs (run All)

open Foundation.Tx (Ensures)

open Protocol (Json)

variable {L : Log} {setup : Setup} {world world' : World} {step : Step} {key k : Json}
  {id : Uuid} {o : Outbox} {s s' : Slice} {cause : Cause} {v v' : View} {act : Act}
  {n : Int}

/-! ## Preconditions -/

/-- The revisions that the queue names as preconditions are revisions of the log. -/
def Slice.Grounded (L : Log) (s : Slice) : Prop :=
  ∀ id o revision, s.ops id = some o → o.precondition = .revision (some revision) →
    ∃ m e, L m = some e ∧ e.revision = some revision

theorem Slice.Grounded.of_update (o' : Outbox) (h : s.Grounded L)
    (hops : s'.ops = (s.setOperation o').ops)
    (hnew : ∀ revision, o'.precondition = .revision (some revision) →
      ∃ m e, L m = some e ∧ e.revision = some revision) : s'.Grounded L := by
  intro id row revision hrow hprecondition
  rw [hops] at hrow
  rcases Slice.setOperation_ops.mp hrow with ⟨_, rfl⟩ | ⟨_, hold⟩
  · exact hnew revision hprecondition
  · exact h id row revision hold hprecondition

/-- The revision of a settled record is one of the log. -/
theorem Slice.Follows.revision {r : Record} (h : s.Follows L n key) (hr : s.record = some r)
    (hsettled : r.state.settled = true) {revision : String}
    (hrevision : r.sourceRevision = some revision) :
    ∃ m e, L m = some e ∧ e.revision = some revision := by
  rcases h.shown r hr hsettled with ⟨e, hat, hshows⟩ | ⟨m, e, hat, _, heq⟩
  · exact ⟨_, e, hat.1, hshows.revision.symm.trans hrevision⟩
  · exact ⟨m, e, hat.1, heq.symm.trans hrevision⟩

theorem Move.grounded (h : Move key cause s s') (htidy : s.Tidy key n)
    (hf : s.Follows L n key) (hg : s.Grounded L) : s'.Grounded L := by
  cases h with
  | @write _ r o hqueues =>
    refine hg.of_update o rfl ?_
    intro revision hprecondition
    cases hrecord : s.record with
    | none =>
      rw [(hqueues.created hrecord).2.2.2.2] at hprecondition
      cases hprecondition
    | some r₀ =>
      obtain ⟨hsettled, _, _, _, _, heq⟩ := hqueues.updated r₀ hrecord
      rw [heq] at hprecondition
      injection hprecondition with hrevision
      exact hf.revision hrecord hsettled hrevision
  | @claim _ o now lease hop => exact hg.of_update (o.claimed now lease) rfl (hg _ o · hop)
  | @retry _ o now hop => exact hg.of_update (o.failed now .unknown) rfl (hg _ o · hop)
  | @exhaust _ o _ hop => exact hg.of_update o.blocked rfl (hg _ o · hop)
  | @block _ o _ now hop => exact hg.of_update (o.failed now .blocked) rfl (hg _ o · hop)
  | @conflict _ o _ _ hop => exact hg.of_update o.conflicted rfl (hg _ o · hop)
  | @settle _ o _ _ _ _ _ hop | @answer _ o _ _ _ _ _ _ _ _ hop =>
    exact hg.of_update o.acknowledged rfl (hg _ o · hop)
  | feed | defer => exact hg
  | @accept _ o _ _ _ _ _ _ _ hop => exact hg.of_update o.resolved rfl (hg _ o · hop)
  | @requeue _ o o' r conflict e _ now hconflict hopen hop hrecord hwaiting hlatest hmax hrevision
      _ _ _ _ _ _ hprecondition =>
    have hold : (s.resolved o conflict now).Grounded L :=
      hg.of_update o.resolved rfl (hg _ o · hop)
    refine hold.of_update o' rfl ?_
    intro revision heq
    rw [hprecondition] at heq
    injection heq with heq
    obtain ⟨⟨e', hat, hshows⟩, _⟩ := hf.newest htidy hwaiting hlatest hmax hrevision
      (hf.evidence r _ conflict hrecord hconflict hopen)
    exact ⟨_, e', hat.1, hshows.revision.symm.trans heq⟩

theorem Transition.grounded (h : Transition act v v') (hs : v.Sound L)
    (hg : ∀ k, (v.slices k).Grounded L) : (v'.slices k).Grounded L := by
  cases h with
  | @move _ key _ s n _ hmove =>
    by_cases hk : k = key
    · subst hk
      simp only [Function.update_self]
      exact hmove.grounded (hs.tidy k) (hs.follows k) (hg k)
    · simp only [Function.update_of_ne hk]
      exact hg k
  | resume =>
    intro id o revision ho hprecondition
    obtain ⟨o₀, ho₀, hsame⟩ := Slice.reschedule_ops ho
    rw [hsame] at hprecondition
    exact hg k id o₀ revision ho₀ hprecondition
  | publish _ _ hslices =>
    intro id o revision ho
    rw [(hslices k).ops] at ho
    exact hg k id o revision ho

/-! ## Refused writes -/

/-- The write has been refused. -/
def OutboxState.refused : OutboxState → Bool
  | .conflict => true
  | .resolved => true
  | _ => false

/-- The write of an open conflict has been refused, and so have those that are resolved. -/
theorem Slice.Agrees.refused_of_resolved {o' : Outbox} {conflict : Conflict} (now : Int)
    (hs : s.Agrees) (htidy : s.Tidy key n) (hconflict : s.conflicts conflict.id = some conflict)
    (hopen : conflict.state = .open) (hop' : s.ops conflict.operationId = some o')
    (hop : (s.resolved o' conflict now).ops id = some o) (hrefused : o.state.refused = true) :
    ∃ o₀, s.ops id = some o₀ ∧ o₀.state.refused = true := by
  rcases Slice.setOperation_ops.mp hop with ⟨rfl, _⟩ | ⟨_, hold⟩
  · have hrow : s.ops o'.operationId = some o' := by rw [htidy.op_id _ o' hop']; exact hop'
    have hsole := (hs.of_open_conflict hconflict hopen hop').1
    refine ⟨o', hrow, ?_⟩
    cases hs with
    | absent _ hquiet | settled _ _ hquiet =>
      exact absurd hopen (hquiet.closed _ conflict hconflict)
    | pending _ _ _ _ _ hclosed | blocked _ _ _ _ hclosed =>
      exact absurd hopen (hclosed _ conflict hconflict)
    | conflict _ _ hsole' hstate =>
      cases hsole'.eq hrow hsole.opened
      rw [hstate]
      rfl
  · exact ⟨o, hold, hrefused⟩

/-- A write is refused just by the report of a conflict. -/
theorem Move.refused (h : Move key cause s s') (htidy : s.Tidy key n) (hs : s.Agrees)
    (hop : s'.ops id = some o) (hrefused : o.state.refused = true) :
    (∃ o₀, s.ops id = some o₀ ∧ o₀.state.refused = true) ∨
      ∃ evidence, cause = .conflict id evidence := by
  -- a write that is not refused afterwards was set by the move, the others have stayed
  have hother : ∀ o' : Outbox, s'.ops = (s.setOperation o').ops → o'.state.refused = false →
      ∃ o₀, s.ops id = some o₀ ∧ o₀.state.refused = true := by
    intro o' hops hfree
    rw [hops] at hop
    rcases Slice.setOperation_ops.mp hop with ⟨_, rfl⟩ | ⟨_, hold⟩
    · rw [hfree] at hrefused
      cases hrefused
    · exact ⟨o, hold, hrefused⟩
  cases h with
  | @write _ r o' hqueues => exact .inl (hother o' rfl (by rw [hqueues.op_state]; rfl))
  | @claim _ o' now lease => exact .inl (hother (o'.claimed now lease) rfl rfl)
  | @retry _ o' now => exact .inl (hother (o'.failed now .unknown) rfl rfl)
  | @exhaust _ o' => exact .inl (hother o'.blocked rfl rfl)
  | @block _ o' _ now => exact .inl (hother (o'.failed now .blocked) rfl rfl)
  | @conflict =>
    rcases Slice.setOperation_ops.mp hop with ⟨rfl, _⟩ | ⟨_, hold⟩
    · exact .inr ⟨_, rfl⟩
    · exact .inl ⟨o, hold, hrefused⟩
  | @settle _ o' | @answer _ o' => exact .inl (hother o'.acknowledged rfl rfl)
  | feed | defer => exact .inl ⟨o, hop, hrefused⟩
  | @accept _ _ _ _ _ _ now hconflict hopen hop' =>
    exact .inl (hs.refused_of_resolved now htidy hconflict hopen hop' hop hrefused)
  | @requeue _ _ _ r _ _ _ now hconflict hopen hop' _ _ _ _ _ _ _ _ hstate =>
    rcases Slice.setOperation_ops.mp hop with ⟨_, rfl⟩ | ⟨_, hold⟩
    · rw [hstate] at hrefused
      cases hrefused
    · exact .inl (hs.refused_of_resolved now htidy hconflict hopen hop' hold hrefused)

theorem Transition.refused (h : Transition act v v') (hs : v.Sound L)
    (hop : (v'.slices k).ops id = some o) (hrefused : o.state.refused = true) :
    (∃ o₀, (v.slices k).ops id = some o₀ ∧ o₀.state.refused = true) ∨
      ∃ evidence, act = .move k (.conflict id evidence) := by
  cases h with
  | @move _ key _ s n _ hmove =>
    by_cases hk : k = key
    · subst hk
      simp only [Function.update_self] at hop
      refine (hmove.refused (hs.tidy k) (hs.agrees k) hop hrefused).imp_right ?_
      rintro ⟨evidence, rfl⟩
      exact ⟨evidence, rfl⟩
    · simp only [Function.update_of_ne hk] at hop
      exact .inl ⟨o, hop, hrefused⟩
  | resume =>
    obtain ⟨o₀, ho₀, hsame⟩ := Slice.reschedule_ops hop
    rw [hsame] at hrefused
    exact .inl ⟨o₀, ho₀, hrefused⟩
  | publish _ _ hslices =>
    rw [(hslices k).ops] at hop
    exact .inl ⟨o, hop, hrefused⟩

/-! ## Refused for ever -/

/-- The source has not executed the write, and its precondition does not hold. -/
def World.Doomed (world : World) (id : Uuid) : Prop :=
  ∃ o, world.cache.outbox.lookup id = some o ∧ world.source.operations.lookup id = none ∧
    o.precondition.holds (world.source.records.lookup o.key) = false

/-- A revision that is drawn is no precondition of the queue. -/
theorem Precondition.holds_fresh {precondition : Precondition} {row : SourceRecord}
    {known : List Uuid} (hfresh : row.revision ∉ known)
    (hknown : ∀ revision, precondition = .revision (some revision) → revision ∈ known) :
    precondition.holds (some row) = false := by
  cases precondition with
  | absent => rfl
  | other => rfl
  | revision text =>
    cases text with
    | none => rfl
    | some =>
      refine decide_eq_false ?_
      rintro rfl
      exact hfresh (hknown _ rfl)

/-- The condition on other writers: none uses the id as its own. -/
def Step.spares (id : Uuid) : Step → Bool
  | .write _ request => decide (request.operationId ≠ some id)
  | _ => true

/-- The source refuses the write after every mutation that does not claim its id. -/
theorem World.Doomed.mutate {draw : Uuid} {request : Request} (hs : world.Sound setup)
    (hg : ∀ k, (world.cache.slice k).Grounded world.source.log)
    (hfresh : world.fresh [draw] = true)
    (hwho : request ∈ world.sent ∨ step = .write draw request) (hspares : step.spares id = true)
    (h : world.Doomed id) :
    (world.atSource (sourceMutate setup.source draw request)).Doomed id := by
  obtain ⟨o, ho, hunknown, hfails⟩ := h
  have hnew : draw ∉ world.known := (World.fresh_iff.mp hfresh).2 draw List.mem_cons_self
  have hensures : Ensures (sourceMutate setup.source draw request) world.source fun _ src =>
      src.operations.lookup id = none ∧
        o.precondition.holds (src.records.lookup o.key) = false := by
    refine ensures_sourceMutate ?_ ?_
    · intro _ _ _ _ _
      exact ⟨hunknown, hfails⟩
    · intro id' mutation hid hkey _ hholds
      have hne : id ≠ id' := by
        rintro rfl
        rcases hwho with hsent | hwrite
        · -- a request that was sent is the queued write, which is refused
          obtain ⟨claim, ⟨o', ho', hof⟩, rfl⟩ := hs.sent request hsent
          cases hid
          cases ho.symm.trans ho'
          have hmutated : o.key = mutation.key := hof.key.symm.trans (Option.some.inj hkey)
          rw [hmutated, ← hof.precondition] at hfails
          cases hfails.symm.trans hholds
        · subst hwrite
          exact of_decide_eq_true hspares hid
      refine ⟨(Keyed.lookup_insert_ne hne).trans hunknown, ?_⟩
      show o.precondition.holds ((world.source.records.insert _).lookup o.key) = false
      rw [Keyed.lookup_insert]
      split
      · refine Precondition.holds_fresh hnew ?_
        intro revision hprecondition
        obtain ⟨m, e, hm, hrevision⟩ :=
          hg o.key id o revision (slice_ops_iff.mpr ⟨ho, rfl⟩) hprecondition
        exact hs.source.revisions m e revision hm hrevision
      · exact hfails
  obtain ⟨hunknown', hfails'⟩ := hensures.commit_state ⟨hunknown, hfails⟩
  exact ⟨o, ho, hunknown', hfails'⟩

theorem World.Refuses.doomed {claim : Claim} (h : world.Refuses claim)
    (hclaim : claim.Queued world.cache) : world.Doomed claim.operationId := by
  obtain ⟨o, ho, hof⟩ := hclaim
  refine ⟨o, ho, h.unknown, ?_⟩
  rw [← hof.precondition, ← hof.key]
  exact h.fails

/-- What is known about one write: it is refused for ever once a worker has seen that it
is refused. -/
structure World.Faithful (id : Uuid) (world : World) : Prop where
  grounded : ∀ k, (world.cache.slice k).Grounded world.source.log
  refused : ∀ o, world.cache.outbox.lookup id = some o → o.state.refused = true → world.Doomed id
  failing : ∀ w claim evidence, world.workers w = .failing claim .revisionConflict evidence →
    claim.operationId = id → world.Doomed id

theorem Touch.doomed (h : Touch setup step world world') (hs : world.Sound setup)
    (hspares : step.spares id = true) (hg : ∀ k, (world.cache.slice k).Grounded world.source.log)
    (hdoomed : world.Doomed id) : world'.Doomed id := by
  cases h with
  | skip => exact hdoomed
  | call _ hmade hfresh =>
    obtain ⟨o, ho, hunknown, hfails⟩ := hdoomed
    obtain ⟨o', ho', hsame⟩ :=
      ((hs.onward hmade hfresh).retains o.key).kept id o (slice_ops_iff.mpr ⟨ho, rfl⟩)
    refine ⟨o', (slice_ops_iff.mp ho').1, hunknown, ?_⟩
    rw [hsame.precondition, hsame.key]
    exact hfails
  | mutate _ hfresh _ _ hwho => exact hdoomed.mutate hs hg hfresh hwho hspares
  | @snapshot draw now cursor limit =>
    obtain ⟨o, ho, hkept⟩ := hdoomed
    have hensures : Ensures (sourceSnapshot setup.source draw now cursor limit) world.source
        fun _ src => src.operations.lookup id = none ∧
          o.precondition.holds (src.records.lookup o.key) = false := by
      refine ensures_sourceSnapshot ?_ ?_
      · intro _
        exact hkept
      · intro _ _ _ _ _
        exact hkept
    exact ⟨o, ho, hensures.commit_state hkept⟩

/-- A conflict is reported by a worker that has seen the refusal. -/
theorem Call.Made.refused {call : Call} {evidence : Event} (hmade : call.Made world step)
    (hf : world.Faithful id) (h : call.admits setup.cache (.move k (.conflict id evidence))) :
    world.Doomed id := by
  cases call with
  | fail _ _ _ _ _ evidence' =>
    obtain ⟨_, heq | ⟨rfl, heq⟩⟩ := h
    · cases heq
    · injection heq with _ hcause
      injection hcause with hid
      obtain ⟨w, claim, _, hstage, hclaim⟩ := hmade
      exact hf.failing w claim evidence' hstage (hclaim.trans hid.symm)
  | put | remove | resume => cases h
  | writeRows | resolve | claim | ack | apply | publish =>
    simp only [Call.admits, Feeds] at h
    simp at h
  | pause => exact h.elim

/-- A call leaves a write refused only if it was, or if a worker has seen the refusal. -/
theorem World.Faithful.call {call : Call} (hf : world.Faithful id) (hs : world.Sound setup)
    (hmade : call.Made world step) (hfresh : world.fresh call.draws = true) :
    (∀ k, ((world.call setup call).cache.slice k).Grounded world.source.log) ∧
      ∀ k o, ((world.call setup call).cache.slice k).ops id = some o → o.state.refused = true →
        world.Doomed id := by
  have hpath : Path (call.admits setup.cache) world.cache.view
      (world.call setup call).cache.view := Cache.step_path hs.cache.tidy rfl
  have hstart : world.cache.view.Onward world.source.log world.source.counter (· ∈ call.draws)
      world.cache.view := ⟨hs.cache, hs.position, fun _ => .of_same rfl, fun _ _ _ _ h => h⟩
  have hrefused : ∀ k o, (world.cache.slice k).ops id = some o → o.state.refused = true →
      world.Doomed id := fun k o ho => hf.refused o (slice_ops_iff.mp ho).1
  refine (hpath.invariant (fun u =>
    world.cache.view.Onward world.source.log world.source.counter (· ∈ call.draws) u ∧
      (∀ k, (u.slices k).Grounded world.source.log) ∧
      ∀ k o, (u.slices k).ops id = some o → o.state.refused = true → world.Doomed id)
    ?_ ⟨hstart, hf.grounded, hrefused⟩).2
  intro act u u' hadmits htransition ⟨honward, hgrounded, hrefused⟩
  have hallowed := call.allowed hs hmade hfresh hadmits htransition honward
  refine ⟨htransition.onward hs.source.numbered hallowed honward,
    fun _ => htransition.grounded honward.sound hgrounded, ?_⟩
  intro k o ho hstate
  rcases htransition.refused honward.sound ho hstate with ⟨o₀, ho₀, hstate₀⟩ | ⟨evidence, rfl⟩
  · exact hrefused k o₀ ho₀ hstate₀
  · exact hmade.refused hf hadmits

theorem Touch.faithful (h : Touch setup step world world') (hs : world.Sound setup)
    (hspares : step.spares id = true) (hf : world.Faithful id) : world'.Faithful id := by
  have hdoomed : world.Doomed id → world'.Doomed id := h.doomed hs hspares hf.grounded
  have hgrows := h.grows hs
  have hfailing : ∀ w claim evidence,
      world.workers w = .failing claim .revisionConflict evidence → claim.operationId = id →
      world'.Doomed id := fun w claim evidence hstage hid =>
    hdoomed (hf.failing w claim evidence hstage hid)
  have hgrounded : ∀ k, (world.cache.slice k).Grounded world'.source.log := by
    intro k id' o revision ho hprecondition
    obtain ⟨m, e, hm, hrevision⟩ := hf.grounded k id' o revision ho hprecondition
    exact ⟨m, e, hgrows m e hm, hrevision⟩
  have hrefused : ∀ o, world.cache.outbox.lookup id = some o → o.state.refused = true →
      world'.Doomed id := fun o ho hstate => hdoomed (hf.refused o ho hstate)
  cases h with
  | skip => exact hf
  | call call hmade hfresh =>
    obtain ⟨hgrounded', hrefused'⟩ := hf.call hs hmade hfresh
    refine ⟨hgrounded', ?_, hfailing⟩
    intro o ho hstate
    exact hdoomed (hrefused' o.key o (slice_ops_iff.mpr ⟨ho, rfl⟩) hstate)
  | mutate | snapshot => exact ⟨hgrounded, hrefused, hfailing⟩

theorem Turn.faithful (h : Turn setup world world') (hf : world.Faithful id) :
    world'.Faithful id := by
  cases h with
  | @stage w stage hstage =>
    refine ⟨hf.grounded, hf.refused, ?_⟩
    intro w' claim evidence hw' hid
    by_cases hw : w' = w
    · subst hw
      have hself : (world.setStage w' stage).workers w' = stage := Function.update_self ..
      have heq := hself.symm.trans hw'
      have hsound := hstage.sound
      rw [heq] at hsound
      rw [← hid]
      exact (hstage.refused claim evidence heq).doomed hsound.1
    · have hother : (world.setStage w stage).workers w' = world.workers w' :=
        Function.update_of_ne hw ..
      exact hf.failing w' claim evidence (hother.symm.trans hw') hid
  | send => exact ⟨hf.grounded, hf.refused, hf.failing⟩

section

variable (h : Advance setup step world world') (hs : world.Sound setup)

include h hs

theorem Advance.faithful (hspares : step.spares id = true) (hf : world.Faithful id) :
    world'.Faithful id := by
  obtain ⟨touched, htouch, hturns⟩ := h
  have htouched := htouch.faithful hs hspares hf
  induction hturns with
  | refl => exact htouched
  | tail _ hturn ih => exact hturn.faithful ih

theorem Advance.doomed
    (hspares : step.spares id = true) (hf : world.Faithful id) (hdoomed : world.Doomed id) :
    world'.Doomed id := by
  obtain ⟨touched, htouch, hturns⟩ := h
  obtain ⟨hcache, hsource, _⟩ := hturns.same
  unfold World.Doomed
  rw [hcache, hsource]
  exact htouch.doomed hs hspares hf.grounded hdoomed

theorem Advance.grows : ∀ m e, world.source.log m = some e → world'.source.log m = some e := by
  obtain ⟨touched, htouch, hturns⟩ := h
  rw [hturns.same.2.1]
  exact htouch.grows hs

end

/-! ## Runs -/

variable {steps later : List Step} {outputs outputs' : List Unit}

/-- No two events have the id of one operation. -/
theorem World.Sound.unique_event (hs : world.Sound setup) {change other : Change}
    (hchange : change ∈ world.source.changes) (hother : other ∈ world.source.changes)
    (hid : change.event.operationId = other.event.operationId) : change = other := by
  have hlog := hs.source.listed change hchange
  have hlog' := hs.source.listed other hother
  obtain ⟨id, row, hop, hrow, houtcome⟩ := hs.source.recalled _ _ hlog
  obtain ⟨id', row', hop', hrow', houtcome'⟩ := hs.source.recalled _ _ hlog'
  cases Option.some.inj (hop.symm.trans (hid.trans hop'))
  cases hrow.symm.trans hrow'
  have hevent : change.event = other.event := houtcome.symm.trans houtcome'
  have hcounter := hs.source.numbered.seq _ _ hlog
  rw [hevent, hs.source.numbered.seq _ _ hlog'] at hcounter
  cases change
  cases hcounter
  cases hevent
  rfl

/-- A write that the source has not executed has no event. -/
theorem World.Doomed.no_event (h : world.Doomed id) (hs : world.Sound setup) :
    ∀ change ∈ world.source.changes, change.event.operationId ≠ some id := by
  intro change hchange hid
  obtain ⟨_, _, hunknown, _⟩ := h
  obtain ⟨id', row, hop, hrow, _⟩ := hs.source.recalled _ _ (hs.source.listed change hchange)
  cases Option.some.inj (hid.symm.trans hop)
  cases hunknown.symm.trans hrow

theorem faithful_start (id : Uuid) : World.Faithful id {} := by
  refine ⟨?_, ?_, ?_⟩
  · intro k id' o revision ho
    cases (slice_ops_iff.mp ho).1
  · intro o ho
    cases ho
  · intro w claim evidence hstage
    cases hstage

/-- The state of a write along a run in which no other writer uses its id. -/
theorem run_faithful
    (hspares : All (World.next setup) (fun _ step => step.spares id = true) world steps)
    (h : run (World.next setup) world steps = some (world', outputs)) (hs : world.Sound setup)
    (hf : world.Faithful id) :
    world'.Faithful id ∧ (world.Doomed id → world'.Doomed id) ∧
      ∀ m e, world.source.log m = some e → world'.source.log m = some e := by
  refine (run_along (fun world' => world'.Faithful id ∧ (world.Doomed id → world'.Doomed id) ∧
    ∀ m e, world.source.log m = some e → world'.source.log m = some e) ?_ hs
    ⟨hf, fun hdoomed => hdoomed, fun _ _ hm => hm⟩ hspares h).2
  intro u step u' hu ⟨hfu, hdoomed, hlog⟩ hstep hadvance
  exact ⟨hadvance.faithful hu hstep hfu, fun hd => hadvance.doomed hu hstep hfu (hdoomed hd),
    fun m e hm => hadvance.grows hu m e (hlog m e hm)⟩

/-- No operation has two events. If no other writer uses the id of a write, then a write
that has an event is never in conflict, and a write that is in conflict, or has been
resolved, never gets one. -/
theorem takes_effect_at_most_once
    (h : run (World.next setup) {} steps = some (world, outputs))
    (h' : run (World.next setup) world later = some (world', outputs')) :
    (∀ change ∈ world'.source.changes, ∀ other ∈ world'.source.changes,
      change.event.operationId = other.event.operationId → change = other) ∧
    ∀ id, (∀ step ∈ steps ++ later, step.spares id = true) →
      ((∃ change ∈ world.source.changes, change.event.operationId = some id) →
        ∀ o, world'.cache.outbox.lookup id = some o → o.state ≠ .conflict) ∧
      ∀ o, world.cache.outbox.lookup id = some o → o.state = .conflict ∨ o.state = .resolved →
        ∀ change ∈ world'.source.changes, change.event.operationId ≠ some id := by
  have hs := run_sound h
  have hs' := hs.run h'
  refine ⟨fun change hchange other hother hid => hs'.unique_event hchange hother hid, ?_⟩
  intro id hspares
  obtain ⟨hf, _, _⟩ := run_faithful
    (.of_mem fun _ step hstep => hspares step (List.mem_append_left _ hstep)) h sound_start
    (faithful_start id)
  obtain ⟨hf', hdoomed, hlog⟩ := run_faithful
    (.of_mem fun _ step hstep => hspares step (List.mem_append_right _ hstep)) h' hs hf
  constructor
  · rintro ⟨change, hchange, hid⟩ o ho hstate
    have hrefused : o.state.refused = true := by
      rw [hstate]
      rfl
    -- the event is still there
    obtain ⟨change', hchange', _, hevent⟩ := log_mem (hlog _ _ (hs.source.listed change hchange))
    exact (hf'.refused o ho hrefused).no_event hs' change' hchange' (hevent ▸ hid)
  · intro o ho hstate
    have hrefused : o.state.refused = true := by
      rcases hstate with hstate | hstate <;> rw [hstate] <;> rfl
    exact (hdoomed (hf.refused o ho hrefused)).no_event hs'

/-- A client writes a new note while another writer creates it, and the worker that
delivers the write reports the conflict. -/
def noteRefused : List Step :=
  [.client (.put "a" 1 noteKey (some (note "one")) (some 0)),
    .write "r" (noteRequest "w" .create .absent "two"), .claim 0 2 (some 30), .deliver 0 2 0,
    .execute "s" (noteRequest "a" .create .absent "one") (some 0), .fail 0 3 "c"]

/-- The request is executed once more, after its worker has given up. -/
def noteRepeated : List Step :=
  [.execute "t" (noteRequest "a" .create .absent "one") none]

theorem takes_effect_at_most_once_note : ∃ world outputs world' outputs',
    run (World.next notesSetup) {} noteRefused = some (world, outputs) ∧
    run (World.next notesSetup) world noteRepeated = some (world', outputs') ∧
    (world.cache.outbox.lookup "a").map Outbox.state = some .conflict ∧
    ∀ change ∈ world'.source.changes, change.event.operationId ≠ some "a" := by
  have hrun : (run (World.next notesSetup) {} noteRefused).map (fun refused =>
      ((refused.1.cache.outbox.lookup "a").map Outbox.state,
        (run (World.next notesSetup) refused.1 noteRepeated).isSome)) =
      some (some .conflict, true) := by
    decide +kernel
  obtain ⟨⟨world, outputs⟩, h, heq⟩ := Option.map_eq_some_iff.mp hrun
  obtain ⟨hstate, hlater⟩ := Prod.mk.inj heq
  obtain ⟨⟨world', outputs'⟩, h'⟩ := Option.isSome_iff_exists.mp hlater
  obtain ⟨o, ho, hconflict⟩ := Option.map_eq_some_iff.mp hstate
  refine ⟨world, outputs, world', outputs', h, h', hstate, ?_⟩
  exact ((takes_effect_at_most_once h h').2 "a" (by decide +kernel)).2 o ho (.inl hconflict)

/-- Another writer that uses the id of the refused write gets an event for it. -/
theorem refused_note_written :
    (run (World.next notesSetup) {} (noteRefused ++
      [.write "t" (noteRequest "a" .update (.revision (some "r")) "three")])).map (fun after =>
        ((after.1.cache.outbox.lookup "a").map Outbox.state,
          after.1.source.changes.map fun change => change.event.operationId)) =
      some (some .conflict, [some "w", some "a"]) := by
  decide +kernel

end NoizuMcp.Sync
