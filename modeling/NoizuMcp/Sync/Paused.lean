import NoizuMcp.Sync.Moves
import NoizuMcp.Sync.Worker

/-!
# Paused bindings

A binding is paused by `pause_binding` or by a `fail_outbox` with an authorisation error,
and `claim_outbox` hands out nothing while it is. `apply_changes` and `publish_snapshot`
write the status `ready` without looking at it, and a worker that checked the status
before the pause calls them after it.

`stays_paused_iff`: without a `resume_binding`, the binding stays paused in every state of
a run just if no page and no snapshot is accepted on the way. `page_unpauses` is a run of
two workers in which one is.
-/

set_option autoImplicit false

namespace NoizuMcp.Sync

open Foundation.Tx Foundation.Runs

open Protocol (Json)

/-- The status of the checkpoint is `paused_auth`. -/
def Cache.Paused (c : Cache) : Prop := c.checkpoint.any (·.status = .pausedAuth) = true

instance (c : Cache) : Decidable c.Paused :=
  inferInstanceAs (Decidable (c.checkpoint.any (·.status = .pausedAuth) = true))

variable {b : Binding} {c c' : Cache} {now : Int} {draw : Uuid}

/-! ## The functions that leave the checkpoint alone -/

section Frame

variable {I : Cache → Prop}

theorem preserves_assertAccess {write : Bool} : Preserves I (assertAccess b write) := by
  refine preserves_raiseIf.bind fun _ => ?_
  exact preserves_raiseIf

theorem preserves_read {α : Type} {cast : Cast α} : Preserves I (cast.read : Sql (Option α)) := by
  cases cast with
  | missing | value => exact preserves_pure
  | malformed => exact preserves_throw

theorem preserves_isDeleted {e : Event} : Preserves I (e.isDeleted : Sql Bool) :=
  preserves_read.bind fun _ => preserves_pure

theorem preserves_cacheCursorCounter {cursor : Option Cursor} :
    Preserves I (cacheCursorCounter b cursor : Sql Int) := by
  unfold cacheCursorCounter cursorCounter
  split
  case h_1 => exact preserves_pure
  case h_2 =>
    split
    case isTrue => exact preserves_pure
    case isFalse => exact preserves_throw
  case h_3 => exact preserves_pure
  case h_4 => exact preserves_throw

variable {new : Record} {old : Option Record} {f : Cache → Cache} {key : Json}
  {fence expected : Option Int} {operation : Uuid}

theorem preserves_recordGuard {role : Role} : Preserves I (recordGuard b role old new) := by
  refine preserves_raiseIf.bind fun _ => ?_
  split
  case h_1 => exact preserves_pure
  case h_2 =>
    refine preserves_assertAccess.bind fun _ => ?_
    exact preserves_raiseIf.bind fun _ => preserves_pure
  case h_3 =>
    refine preserves_assertAccess.bind fun _ => ?_
    refine preserves_raiseIf.bind fun _ => ?_
    refine preserves_raiseIf.bind fun _ => ?_
    exact preserves_raiseIf.bind fun _ => preserves_pure

theorem preserves_latest {best : Event} {events : List Event} :
    Preserves I (latest best events : Sql Event) := by
  induction events generalizing best with
  | nil => exact preserves_pure
  | cons e _ ih =>
    refine preserves_read.bind fun _ => ?_
    exact preserves_read.bind fun _ => ih

/-- What holds of the checkpoint and nothing else. -/
def OfCheckpoint (I : Cache → Prop) : Prop := ∀ c c', c'.checkpoint = c.checkpoint → I c → I c'

variable (hI : OfCheckpoint I)

include hI

/-- A write of another table. -/
theorem preserves_write (hf : ∀ c, (f c).checkpoint = c.checkpoint) :
    Preserves I (modify f : Sql PUnit) :=
  preserves_modify fun c hc => hI c (f c) (hf c) hc

theorem preserves_write_bind {α : Type} {g : PUnit → Sql α}
    (hf : ∀ c, (f c).checkpoint = c.checkpoint) (hg : ∀ u, Preserves I (g u)) :
    Preserves I (modify f >>= g) :=
  (preserves_write hI hf).bind hg

theorem preserves_applyRecord : Preserves I (applyRecord b old new) :=
  preserves_recordGuard.bind fun _ => preserves_write hI fun _ => rfl

theorem preserves_insertOperation {o : Outbox} : Preserves I (insertOperation o) := by
  refine preserves_get.bind fun _ => ?_
  exact preserves_raiseIf.bind fun _ => preserves_write hI fun _ => rfl

theorem preserves_applyCleanEvent {e : Event} : Preserves I (applyCleanEvent b e) := by
  refine preserves_read.bind fun seq => ?_
  split
  case h_2 => exact preserves_throw
  case h_1 key seq _ _ _ =>
    refine preserves_raiseIf.bind fun _ => ?_
    refine preserves_get.bind fun c => ?_
    cases c.records.lookup key with
    | none => exact preserves_isDeleted.bind fun _ => preserves_applyRecord hI
    | some =>
      refine preserves_raiseIf.bind fun _ => ?_
      split
      case isTrue => exact preserves_pure
      case isFalse => exact preserves_isDeleted.bind fun _ => preserves_applyRecord hI

theorem preserves_drainDeferred : Preserves I (drainDeferred b now key) := by
  have hdrain : ∀ events, Preserves I (drain b now events) := by
    intro events
    induction events with
    | nil => exact preserves_pure
    | cons d _ ih =>
      refine (preserves_applyCleanEvent hI).bind fun _ => ?_
      exact preserves_write_bind hI (fun _ => rfl) fun _ => ih
  exact preserves_get.bind fun _ => hdrain _

theorem preserves_ackOutbox {result : Event} :
    Preserves I (ackOutbox b now operation fence result) := by
  refine preserves_get.bind fun c => ?_
  cases c.outbox.lookup operation with
  | none => exact preserves_pure
  | some o =>
    refine preserves_assertAccess.bind fun _ => ?_
    cases c.records.lookup o.key with
    | none => exact preserves_pure
    | some =>
      simp only
      split
      case isTrue => exact preserves_pure
      case isFalse =>
        refine preserves_raiseIf.bind fun _ => ?_
        refine preserves_read.bind fun _ => ?_
        refine preserves_isDeleted.bind fun _ => ?_
        refine preserves_write_bind hI (fun _ => rfl) fun _ => ?_
        refine (preserves_applyRecord hI).bind fun _ => ?_
        exact (preserves_drainDeferred hI).bind fun _ => preserves_pure

theorem preserves_resolve {conflict : Uuid} {strategy : Option Strategy} :
    Preserves I (resolve b draw now conflict strategy expected) := by
  refine preserves_get.bind fun c => ?_
  cases c.conflicts.lookup conflict with
  | none => exact preserves_throw
  | some =>
    refine preserves_assertAccess.bind fun _ => ?_
    split
    case h_2 => exact preserves_throw
    case h_1 =>
      refine preserves_raiseIf.bind fun _ => ?_
      refine preserves_raiseIf.bind fun _ => ?_
      cases strategy with
      | none => exact preserves_throw
      | some strategy =>
        refine preserves_latest.bind fun e => ?_
        refine preserves_raiseIf.bind fun _ => ?_
        refine preserves_read.bind fun seq => ?_
        refine preserves_isDeleted.bind fun deleted => ?_
        refine preserves_write_bind hI (fun _ => rfl) fun _ => ?_
        refine (preserves_applyRecord hI).bind fun _ => ?_
        refine preserves_write_bind hI (fun _ => rfl) fun _ => ?_
        refine preserves_write_bind hI (fun _ => rfl) fun _ => ?_
        cases strategy with
        | acceptRemote => exact preserves_pure
        | retryLocal =>
          refine (preserves_applyRecord hI).bind fun _ => ?_
          exact (preserves_insertOperation hI).bind fun _ => preserves_pure

omit hI

/-- What holds of the checkpoint, also when a row is made for it or its status is set. -/
structure Pausable (I : Cache → Prop) : Prop where
  ofCheckpoint : OfCheckpoint I
  ensure : ∀ c, I c → I c.ensureCheckpoint
  pause : ∀ c, I c → I c.pause

variable (hP : Pausable I)

include hP

theorem preserves_failOutbox {code : SyncCode} {evidence : Event} :
    Preserves I (failOutbox b draw now operation fence code evidence) := by
  have hI := hP.ofCheckpoint
  refine preserves_get.bind fun c => ?_
  cases c.outbox.lookup operation with
  | none => exact preserves_pure
  | some o =>
    refine preserves_assertAccess.bind fun _ => ?_
    refine (preserves_modify hP.ensure).bind fun _ => ?_
    cases c.records.lookup o.key with
    | none => exact preserves_pure
    | some =>
      simp only
      split
      case isTrue => exact preserves_pure
      case isFalse =>
        split
        case isTrue =>
          refine preserves_raiseIf.bind fun _ => ?_
          refine preserves_write_bind hI (fun _ => rfl) fun _ => ?_
          refine preserves_write_bind hI (fun _ => rfl) fun _ => ?_
          exact (preserves_applyRecord hI).bind fun _ => preserves_pure
        case isFalse =>
          split
          case isTrue =>
            refine (preserves_applyRecord hI).bind fun _ => ?_
            exact preserves_write_bind hI (fun _ => rfl) fun _ => preserves_pure
          case isFalse =>
            refine preserves_write_bind hI (fun _ => rfl) fun _ => ?_
            refine Preserves.bind (preserves_modify fun c hc => ?_) fun _ => preserves_pure
            split
            case isTrue => exact hP.pause c hc
            case isFalse => exact hc

/-- The calls that neither move the checkpoint nor resume the binding. -/
theorem preserves_call {call : Call} (happly : ∀ now events cursor, call ≠ .apply now events cursor)
    (hpublish : ∀ now rows cursor id, call ≠ .publish now rows cursor id)
    (hresume : ∀ now, call ≠ .resume now) : Preserves I (call.run b) := by
  have hI := hP.ofCheckpoint
  cases call with
  | put => exact Preserves.map fun c hc => ensures_put fun _ c' _ _ hsame => hI c c' hsame hc
  | remove => exact Preserves.map fun c hc => ensures_remove fun _ c' _ _ hsame => hI c c' hsame hc
  | writeRows _ changes =>
    exact Preserves.map fun c hc => ensures_writeRows changes I
      (fun c c' _ _ _ hc _ hsame => hI c c' hsame hc) changes c (fun _ h => h) hc
  | resolve => exact (preserves_resolve hI).map
  | claim =>
    exact Preserves.map fun c hc => (ensures_claimOutbox I
      (fun c c' _ hc _ hsame => hI c c' hsame hc) hc).mono fun _ _ h => h.1
  | ack => exact (preserves_ackOutbox hI).map
  | fail => exact (preserves_failOutbox hP).map
  | apply now events cursor => exact absurd rfl (happly now events cursor)
  | publish now rows cursor id => exact absurd rfl (hpublish now rows cursor id)
  | pause => exact (preserves_assertAccess.bind fun _ => preserves_modify hP.pause).map
  | resume now => exact absurd rfl (hresume now)

theorem preserves_byClient {call : Call} (h : call.byClient = true) :
    Preserves I (call.run b) := by
  refine preserves_call hP ?_ ?_ ?_
  · rintro now events cursor rfl
    cases h
  · rintro now rows cursor id rfl
    cases h
  · rintro now rfl
    cases h

end Frame

/-! ## The functions on a paused binding -/

theorem ofCheckpoint_paused : OfCheckpoint Cache.Paused := by
  intro c c' hcheckpoint hc
  unfold Cache.Paused
  rw [hcheckpoint]
  exact hc

theorem paused_pause : c.pause.Paused := by
  rfl

theorem Cache.Paused.ensureCheckpoint (h : c.Paused) : c.ensureCheckpoint.Paused := by
  unfold Cache.Paused at h ⊢
  unfold Cache.ensureCheckpoint
  cases hcheckpoint : c.checkpoint with rw [hcheckpoint] at h
  | none => cases h
  | some => exact h

variable {cursor nextCursor : Option Cursor} {rows events : List Event} {snapshotId : String}
  {leaseSeconds : Option Int} {step : Step} {I : Cache → Prop}

theorem not_paused_advanced {checkpoint : Checkpoint} {seq : Int} :
    ¬ (c.setCheckpoint (checkpoint.advanced cursor seq now)).Paused := by
  intro h
  cases h

theorem pausable_paused : Pausable Cache.Paused where
  ofCheckpoint := ofCheckpoint_paused
  ensure _ hc := hc.ensureCheckpoint
  pause _ _ := paused_pause

/-- A page that is behind keeps what holds of the checkpoint; any other page that is accepted
moves it on. -/
theorem ensures_applyChanges_checkpoint (hP : Pausable I) (hc : I c) :
    Ensures (applyChanges b now events nextCursor) c fun tally c' => (tally = none → I c') ∧
      (tally ≠ none → ∃ (c₀ : Cache) (checkpoint : Checkpoint) (seq : Int),
        c' = c₀.setCheckpoint (checkpoint.advanced nextCursor seq now)) := by
  unfold applyChanges
  simp only [ensures_bind]
  refine (preserves_assertAccess c hc).mono fun _ c₁ hc₁ => ?_
  rw [ensures_raiseIf]
  intro _
  refine (preserves_cacheCursorCounter c₁ hc₁).mono fun next c₂ hc₂ => ?_
  rw [ensures_modify, ensures_get]
  split
  case isTrue =>
    rw [ensures_pure]
    exact ⟨fun _ => hP.ensure c₂ hc₂, fun hne => absurd rfl hne⟩
  case isFalse =>
    simp only [ensures_bind, ensures_raiseIf, ensures_modify, ensures_pure]
    intro result c₃ _ _
    exact ⟨fun hnone => absurd hnone (Option.some_ne_none _), fun _ => ⟨_, _, _, rfl⟩⟩

/-- A page that is behind changes nothing; any other page that is accepted makes the
binding ready. -/
theorem ensures_applyChanges_paused (hc : c.Paused) :
    Ensures (applyChanges b now events nextCursor) c fun tally c' =>
      (tally = none → c'.Paused) ∧ (tally ≠ none → ¬ c'.Paused) := by
  refine (ensures_applyChanges_checkpoint pausable_paused hc).mono fun tally c' h => ⟨h.1, ?_⟩
  intro hne
  obtain ⟨c₀, checkpoint, seq, rfl⟩ := h.2 hne
  exact not_paused_advanced

theorem ensures_publishSnapshot_paused :
    Ensures (publishSnapshot b now rows cursor snapshotId) c fun _ c' => ¬ c'.Paused := by
  unfold publishSnapshot
  simp only [ensures_bind, ensures_raiseIf, ensures_get, ensures_modify]
  intro _ _ _ _ _ _ _ _ _ _ _ _ _
  exact not_paused_advanced

/-- Nothing is handed out of a paused binding. -/
theorem ensures_claimOutbox_paused (hc : c.Paused) :
    Ensures (claimOutbox b now leaseSeconds) c fun claim _ => claim = none := by
  unfold claimOutbox
  simp only [ensures_bind]
  refine (preserves_assertAccess c hc).mono fun _ c₁ hc₁ => ?_
  have hpaused : c₁.checkpoint.any (·.status = .pausedAuth) = true := hc₁
  rw [ensures_get, if_pos hpaused, ensures_pure]

theorem claim_paused (hc : c.Paused) (claim : Claim) :
    ((claimOutbox b now leaseSeconds).commit c).2 ≠ .ok (some claim) := by
  intro hclaim
  have hcommit : (claimOutbox b now leaseSeconds).commit c =
      (((claimOutbox b now leaseSeconds).commit c).1, .ok (some claim)) := by
    rw [← hclaim]
  cases (ensures_claimOutbox_paused hc).of_commit hcommit

/-! ## Runs -/

/-- The step accepts a page of changes or a snapshot. -/
def World.refreshes (setup : Setup) (world : World) : Step → Bool
  | .apply w now =>
    match world.workers w with
    | .applying page =>
      match ((applyChanges setup.cache now page.events (some page.nextCursor)).commit
        world.cache).2 with
      | .ok (some _) => true
      | _ => false
    | _ => false
  | .publish w now =>
    match world.workers w with
    | .publishing rows cursor id =>
      match ((publishSnapshot setup.cache now rows (some cursor) id).commit world.cache).2 with
      | .ok _ => true
      | .error _ => false
    | _ => false
  | _ => false

variable {setup : Setup} {world world' : World}

theorem paused_apply (hc : c.Paused) :
    ((applyChanges b now events nextCursor).commit c).1.Paused ↔
      ∀ tally, ((applyChanges b now events nextCursor).commit c).2 ≠ .ok (some tally) := by
  have hensures : Ensures (applyChanges b now events nextCursor) c _ :=
    ensures_applyChanges_paused hc
  cases hcommit : (applyChanges b now events nextCursor).commit c with
  | mk _ reply =>
    cases reply with
    | error => simp [eq_of_commit_error hcommit, hc]
    | ok tally =>
      obtain ⟨hnone, hsome⟩ := hensures.of_commit hcommit
      cases tally with
      | none => simp [hnone rfl]
      | some tally => simp [hsome (Option.some_ne_none tally)]

theorem paused_publish (hc : c.Paused) :
    ((publishSnapshot b now rows cursor snapshotId).commit c).1.Paused ↔
      ((publishSnapshot b now rows cursor snapshotId).commit c).2 ≠ .ok () := by
  have hensures : Ensures (publishSnapshot b now rows cursor snapshotId) c _ :=
    ensures_publishSnapshot_paused
  cases hcommit : (publishSnapshot b now rows cursor snapshotId).commit c with
  | mk _ reply =>
    cases reply with
    | error => simp [eq_of_commit_error hcommit, hc]
    | ok => simp [hensures.of_commit hcommit]

/-- The call of the cache that a step makes. -/
def World.cacheCall (world : World) : Step → Option Call
  | .client call => some call
  | .claim _ now lease => some (.claim now lease)
  | .ack w now =>
    match world.workers w with
    | .acking claim result => some (.ack now claim.operationId (some claim.fencingToken) result)
    | _ => none
  | .fail w now draw =>
    match world.workers w with
    | .failing claim code evidence =>
      some (.fail draw now claim.operationId (some claim.fencingToken) code evidence)
    | _ => none
  | .apply w now =>
    match world.workers w with
    | .applying page => some (.apply now page.events (some page.nextCursor))
    | _ => none
  | .publish w now =>
    match world.workers w with
    | .publishing rows cursor id => some (.publish now rows (some cursor) id)
    | _ => none
  | .pause => some .pause
  | .resume now => some (.resume now)
  | _ => none

/-- The cache after a call, or as it was. -/
def Cache.afterCall (b : Binding) (c : Cache) (call : Option Call) : Cache :=
  match call with
  | some call => ((call.run b).commit c).1
  | none => c

theorem cache_send {w : Nat} {claim : Claim} : (world.send setup w claim).cache = world.cache := by
  unfold World.send
  split
  case isTrue => rfl
  case isFalse => rfl

theorem cache_answer {request : Request} {reply : Except Raised Event} {receiver : Option Nat} :
    (world.answer setup request reply receiver).cache = world.cache := by
  unfold World.answer
  cases receiver with
  | none => rfl
  | some =>
    simp only
    split
    case h_1 =>
      split
      case isTrue => rfl
      case isFalse => rfl
    case h_2 => rfl

theorem cache_remembered {w : Nat} {claim : Claim} {expired : Bool}
    {reply : Except Raised (Option Event)} :
    (world.remembered setup w claim expired reply).cache = world.cache := by
  unfold World.remembered
  split
  case h_1 => rfl
  case h_2 =>
    split
    case isTrue => rfl
    case isFalse => exact cache_send
  case h_3 => rfl

/-- Only the call that a step makes changes the cache. -/
theorem step_cache (h : world.step setup step = some world') :
    world'.cache = world.cache.afterCall setup.cache (world.cacheCall step) := by
  cases step with simp only [World.step] at h
  | client | write =>
    split at h
    case isTrue =>
      cases h
      rfl
    case isFalse => cases h
  | claim | pull | changes | snapshot =>
    split at h
    case h_1 =>
      cases h
      rfl
    case h_2 => cases h
  | deliver =>
    split at h
    case h_1 =>
      split at h
      case isTrue =>
        cases h
        rfl
      case isFalse =>
        cases h
        exact cache_send
    case h_2 => cases h
  | ask =>
    split at h
    case h_1 =>
      cases h
      exact cache_remembered
    case h_2 => cases h
  | execute =>
    split at h
    case isTrue =>
      cases h
      exact cache_answer
    case isFalse => cases h
  | lose =>
    split at h
    case h_1 | h_2 =>
      cases h
      rfl
    case h_3 => cases h
  | ack | apply | publish =>
    split at h
    case h_1 hstage =>
      cases h
      simp only [World.cacheCall, hstage]
      rfl
    case h_2 => cases h
  | fail =>
    split at h
    case h_1 hstage =>
      split at h
      case isTrue =>
        cases h
        simp only [World.cacheCall, hstage]
        rfl
      case isFalse => cases h
    case h_2 => cases h
  | page =>
    split at h
    case h_1 =>
      split at h
      case isTrue =>
        cases h
        rfl
      case isFalse => cases h
    case h_2 => cases h
  | pause | resume | stop =>
    cases h
    rfl

theorem afterCall_of_preserves {call : Option Call} (hc : I c)
    (hcall : ∀ call', call = some call' → Preserves I (call'.run b)) : I (c.afterCall b call) := by
  cases call with
  | none => exact hc
  | some call => exact (hcall call rfl).commit hc

/-- The call of a step that is neither a pull nor a resume. -/
theorem preserves_cacheCall (hP : Pausable I) {call : Call}
    (h : world.step setup step = some world') (happly : ∀ w now, step ≠ .apply w now)
    (hpublish : ∀ w now, step ≠ .publish w now) (hresume : ∀ now, step ≠ .resume now)
    (hcall : world.cacheCall step = some call) : Preserves I (call.run setup.cache) := by
  cases step with
  | client =>
    cases hcall
    simp only [World.step] at h
    split at h
    case isTrue hclient => exact preserves_byClient hP hclient.1
    case isFalse => cases h
  | claim | pause =>
    cases hcall
    exact preserves_call hP nofun nofun nofun
  | ack | fail =>
    simp only [World.cacheCall] at hcall
    split at hcall
    case h_1 =>
      cases hcall
      exact preserves_call hP nofun nofun nofun
    case h_2 => cases hcall
  | apply w now => exact absurd rfl (happly w now)
  | publish w now => exact absurd rfl (hpublish w now)
  | resume now => exact absurd rfl (hresume now)
  | write | deliver | ask | execute | lose | pull | changes | snapshot | page | stop => cases hcall

/-- A step without a resume keeps the binding paused just if it accepts nothing. -/
theorem paused_step (hc : world.cache.Paused) (hresume : ∀ now, step ≠ .resume now)
    (h : world.step setup step = some world') :
    world'.cache.Paused ↔ world.refreshes setup step = false := by
  rw [step_cache h]
  by_cases hpull : (∃ w now, step = .apply w now) ∨ ∃ w now, step = .publish w now
  · rcases hpull with ⟨w, now, rfl⟩ | ⟨w, now, rfl⟩
    · simp only [World.step] at h
      split at h
      case h_1 hstage =>
        simp only [World.cacheCall, World.refreshes, hstage, Cache.afterCall, Call.run, commit_map,
          paused_apply hc]
        split
        case h_1 heq => simp [heq]
        case h_2 hne => exact iff_of_true hne rfl
      case h_2 => cases h
    · simp only [World.step] at h
      split at h
      case h_1 hstage =>
        simp only [World.cacheCall, World.refreshes, hstage, Cache.afterCall, Call.run, commit_map,
          paused_publish hc]
        split
        case h_1 heq => simp [heq]
        case h_2 heq => simp [heq]
      case h_2 => cases h
  · rw [not_or] at hpull
    have happly : ∀ w now, step ≠ .apply w now := fun w now heq => hpull.1 ⟨w, now, heq⟩
    have hpublish : ∀ w now, step ≠ .publish w now := fun w now heq => hpull.2 ⟨w, now, heq⟩
    have hstays : (world.cache.afterCall setup.cache (world.cacheCall step)).Paused :=
      afterCall_of_preserves hc fun call hcall =>
        preserves_cacheCall pausable_paused h happly hpublish hresume hcall
    refine iff_of_true hstays ?_
    cases step with
    | apply w now => exact absurd rfl (happly w now)
    | publish w now => exact absurd rfl (hpublish w now)
    | _ => rfl

theorem refreshes_of_none (h : world.step setup step = none) :
    world.refreshes setup step = false := by
  cases step with
  | apply | publish =>
    simp only [World.step] at h
    split at h
    case h_1 => cases h
    case h_2 => simp only [World.refreshes]
  | _ => rfl

/-- Without a resume, the binding stays paused along a run, and no claim hands out an
operation, just if no page and no snapshot is accepted on the way. -/
theorem stays_paused_iff {steps : List Step} (hc : world.cache.Paused)
    (hresume : ∀ now, Step.resume now ∉ steps) :
    (∀ first rest world' outputs, steps = first ++ rest →
      run (World.next setup) world first = some (world', outputs) →
        world'.cache.Paused ∧ ∀ now lease claim,
          ((claimOutbox setup.cache now lease).commit world'.cache).2 ≠ .ok (some claim)) ↔
      All (World.next setup) (fun world step => world.refreshes setup step = false) world steps := by
  have hstates : (∀ first rest world' outputs, steps = first ++ rest →
      run (World.next setup) world first = some (world', outputs) → world'.cache.Paused) ↔
        All (World.next setup) (fun world step => world.refreshes setup step = false) world steps := by
    refine forall_states_iff_of_mem (fun world : World => world.cache.Paused) ?_ hc
    intro world step hstep hpaused
    have hno : ∀ now, step ≠ .resume now := by
      rintro now rfl
      exact hresume now hstep
    unfold World.next
    cases hnext : world.step setup step with
    | none =>
      refine iff_of_true ?_ (refreshes_of_none hnext)
      intro next hin
      cases hin
    | some =>
      rw [← paused_step hpaused hno hnext]
      simp
  rw [← hstates]
  constructor
  · intro h first rest world' outputs hsteps hrun
    exact (h first rest world' outputs hsteps hrun).1
  · intro h first rest world' outputs hsteps hrun
    have hpaused := h first rest world' outputs hsteps hrun
    exact ⟨hpaused, fun now lease claim => claim_paused hpaused claim⟩

namespace Pausing

def notes : Setup where
  cache := { id := "b1", relation := "notes" }
  source := { id := "b1", relation := "notes" }
  relation := "notes"

/-- An empty source is copied, a note is written, worker 0 fetches the next changes, and
the binding is paused. -/
def opening : List Step :=
  [.snapshot 0, .page 0 "s1" 0, .publish 0 1,
    .client (.put "o1" 2 (.obj [("id", .str "a")]) (some (.obj [])) (some 0)),
    .pull 0, .changes 0, .pause]

/-- Worker 0 applies its page, and worker 1 asks for an operation. -/
def closing : List Step := [.apply 0 3, .claim 1 4 (some 30)]

def holds (world : World) (w : Nat) : Bool :=
  match world.workers w with
  | .holding _ => true
  | _ => false

end Pausing

/-- Worker 1 asks for an operation of the paused binding, and gets none. -/
theorem stays_paused_claim : ∃ world outputs world' outputs',
    run (World.next Pausing.notes) {} Pausing.opening = some (world, outputs) ∧
      run (World.next Pausing.notes) world [.claim 1 4 (some 30)] = some (world', outputs') ∧
      world'.cache.Paused ∧ ∀ now lease claim,
        ((claimOutbox Pausing.notes.cache now lease).commit world'.cache).2 ≠
          .ok (some claim) := by
  have hrun : (run (World.next Pausing.notes) {} Pausing.opening).map (fun last =>
      (decide last.1.cache.Paused,
        (run (World.next Pausing.notes) last.1 [.claim 1 4 (some 30)]).isSome)) =
      some (true, true) := by decide +kernel
  obtain ⟨⟨world, outputs⟩, hrun, hlast⟩ := Option.map_eq_some_iff.mp hrun
  obtain ⟨hpaused, hclaim⟩ := Prod.mk.inj hlast
  obtain ⟨⟨world', outputs'⟩, hclaim⟩ := Option.isSome_iff_exists.mp hclaim
  have hc : world.cache.Paused := of_decide_eq_true hpaused
  have hresume : ∀ now, Step.resume now ∉ [Step.claim 1 4 (some 30)] := by simp
  have hall : All (World.next Pausing.notes) (fun world step =>
      world.refreshes Pausing.notes step = false) world [.claim 1 4 (some 30)] :=
    ⟨rfl, fun _ _ => trivial⟩
  have hstates := (stays_paused_iff hc hresume).mpr hall
  exact ⟨world, outputs, world', outputs', hrun, hclaim,
    hstates [.claim 1 4 (some 30)] [] world' outputs' rfl hclaim⟩

/-- The page that worker 0 fetched before the pause makes the binding ready again, and
worker 1 is handed the operation, though nobody has resumed the binding. -/
theorem page_unpauses :
    (run (World.next Pausing.notes) {} Pausing.opening).map
        (fun last => decide last.1.cache.Paused) = some true ∧
      (∀ now, Step.resume now ∉ Pausing.closing) ∧
      (run (World.next Pausing.notes) {} (Pausing.opening ++ Pausing.closing)).map
        (fun last => (decide last.1.cache.Paused, Pausing.holds last.1 1)) = some (false, true) := by
  refine ⟨by decide +kernel, ?_, by decide +kernel⟩
  simp [Pausing.closing]

end NoizuMcp.Sync
