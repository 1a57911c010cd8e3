import NoizuMcp.Sync.SourceLog
import NoizuMcp.Sync.Worker

/-!
# What holds between a cache and its source

`World.Sound` ties the parts of the system together: the source is a view of its log, the
cache follows the log and is not ahead of it, and whatever a worker holds (a claim, an
answer, a page, a snapshot) came from the queue or from the log. A step of the system
changes the shared tables (`Touch`) and then the stage of one worker (`Turn`), and both keep
the system sound.
-/

set_option autoImplicit false

namespace NoizuMcp.Sync

open Foundation (Keyed)

open Foundation.Tx

open Protocol (Json)

variable {L : Log} {D : Uuid → Prop} {key k : Json} {id : Uuid} {o o' : Outbox} {head : Int}
  {s s' : Slice} {cause : Cause} {act : Act} {v v' : View}

/-! ## Writes stay in the queue -/

/-- The same write, at another time. -/
structure Outbox.Same (o o' : Outbox) : Prop where
  key : o.key = o'.key
  operation : o.operation = o'.operation
  precondition : o.precondition = o'.precondition
  payload : o.payload = o'.payload

theorem Outbox.Same.trans {o'' : Outbox} (h : o.Same o') (h' : o'.Same o'') : o.Same o'' :=
  ⟨h.key.trans h'.key, h.operation.trans h'.operation, h.precondition.trans h'.precondition,
    h.payload.trans h'.payload⟩

/-- No write leaves the queue, and a new one has an id that was drawn. -/
structure Slice.Retains (D : Uuid → Prop) (s s' : Slice) : Prop where
  kept : ∀ id o, s.ops id = some o → ∃ o', s'.ops id = some o' ∧ o'.Same o
  new : ∀ id o, s'.ops id = some o → (∃ o', s.ops id = some o') ∨ D id

theorem Slice.Retains.of_same (hops : s'.ops = s.ops) : s.Retains D s' := by
  constructor
  · intro id o ho
    exact ⟨o, by rw [hops]; exact ho, rfl, rfl, rfl, rfl⟩
  · intro id o ho
    rw [hops] at ho
    exact .inl ⟨o, ho⟩

theorem Slice.Retains.trans {s'' : Slice} (h : s.Retains D s') (h' : s'.Retains D s'') :
    s.Retains D s'' := by
  constructor
  · intro id o ho
    obtain ⟨o', ho', hsame⟩ := h.kept id o ho
    obtain ⟨o'', ho'', hsame'⟩ := h'.kept id o' ho'
    exact ⟨o'', ho'', hsame'.trans hsame⟩
  · intro id o ho
    rcases h'.new id o ho with ⟨o', ho'⟩ | hdrawn
    · exact h.new id o' ho'
    · exact .inr hdrawn

theorem Slice.Retains.of_update (o' : Outbox) (hop : s.ops o.operationId = some o)
    (hid : o'.operationId = o.operationId) (hsame : o'.Same o)
    (hops : s'.ops = (s.setOperation o').ops) : s.Retains D s' := by
  constructor
  · intro id row hrow
    rw [hops]
    by_cases heq : id = o'.operationId
    · refine ⟨o', Slice.setOperation_ops.mpr (.inl ⟨heq, rfl⟩), ?_⟩
      rw [heq, hid, hop] at hrow
      exact Option.some.inj hrow ▸ hsame
    · exact ⟨row, Slice.setOperation_ops.mpr (.inr ⟨heq, hrow⟩), rfl, rfl, rfl, rfl⟩
  · intro id row hrow
    rw [hops] at hrow
    rcases Slice.setOperation_ops.mp hrow with ⟨rfl, _⟩ | ⟨_, hold⟩
    · exact .inl ⟨o, by rw [hid]; exact hop⟩
    · exact .inl ⟨row, hold⟩

theorem Slice.Retains.of_insert (hnew : s.ops o.operationId = none) (hdrawn : D o.operationId)
    (hops : s'.ops = (s.setOperation o).ops) : s.Retains D s' := by
  constructor
  · intro id row hrow
    have hne : id ≠ o.operationId := by
      rintro rfl
      cases hnew.symm.trans hrow
    rw [hops]
    exact ⟨row, Slice.setOperation_ops.mpr (.inr ⟨hne, hrow⟩), rfl, rfl, rfl, rfl⟩
  · intro id row hrow
    rw [hops] at hrow
    rcases Slice.setOperation_ops.mp hrow with ⟨rfl, _⟩ | ⟨_, hold⟩
    · exact .inr hdrawn
    · exact .inl ⟨row, hold⟩

variable {n now seq : Int} {src : Source} {draw : Uuid} {claim : Claim} {w limit : Nat}
  {staging : Staging} {outputs : List Unit} {steps : List Step}

theorem Move.retains (h : Move key cause s s') (htidy : s.Tidy key n) : s.Retains cause.Draws s' := by
  cases h with
  | write _ hnew => exact .of_insert hnew rfl rfl
  | @claim _ o now lease hop => exact .of_update (o.claimed now lease) hop rfl ⟨rfl, rfl, rfl, rfl⟩ rfl
  | @retry _ o now hop => exact .of_update (o.failed now .unknown) hop rfl ⟨rfl, rfl, rfl, rfl⟩ rfl
  | @exhaust _ o _ hop => exact .of_update o.blocked hop rfl ⟨rfl, rfl, rfl, rfl⟩ rfl
  | @block _ o _ now hop => exact .of_update (o.failed now .blocked) hop rfl ⟨rfl, rfl, rfl, rfl⟩ rfl
  | @conflict _ o _ _ hop => exact .of_update o.conflicted hop rfl ⟨rfl, rfl, rfl, rfl⟩ rfl
  | @settle _ o _ _ _ _ _ hop => exact .of_update o.acknowledged hop rfl ⟨rfl, rfl, rfl, rfl⟩ rfl
  | feed | defer => exact .of_same rfl
  | @answer _ o _ _ _ _ _ _ _ _ hop =>
    exact .of_update o.acknowledged hop rfl ⟨rfl, rfl, rfl, rfl⟩ rfl
  | @accept _ o _ _ _ _ _ _ _ hop =>
    have hop' : s.ops o.operationId = some o := by rw [htidy.op_id _ o hop]; exact hop
    exact .of_update o.resolved hop' rfl ⟨rfl, rfl, rfl, rfl⟩ rfl
  | @requeue _ o o' r conflict _ _ now _ _ hop _ _ _ _ _ hnew =>
    have hop' : s.ops o.operationId = some o := by rw [htidy.op_id _ o hop]; exact hop
    have hold : s.Retains (Cause.resolve o'.operationId).Draws (s.resolved o conflict now) :=
      .of_update o.resolved hop' rfl ⟨rfl, rfl, rfl, rfl⟩ rfl
    have hne : o'.operationId ≠ o.operationId := by
      intro heq
      rw [heq] at hnew
      cases hnew.symm.trans hop'
    have hfree : (s.resolved o conflict now).ops o'.operationId = none := by
      show Function.update s.ops o.operationId _ o'.operationId = none
      rw [Function.update_of_ne hne]
      exact hnew
    exact hold.trans (.of_insert hfree rfl rfl)

theorem Published.ops {rows : List Event} (h : Published rows seq key s s') : s'.ops = s.ops := by
  cases h <;> rfl

theorem Transition.retains (h : Transition act v v') (hv : v.Tidy) :
    (v.slices k).Retains act.Draws (v'.slices k) := by
  cases h with
  | @move _ key _ s n _ hmove =>
    by_cases hk : k = key
    · subst hk
      simp only [Function.update_self]
      exact hmove.retains (hv k)
    · simp only [Function.update_of_ne hk]
      exact .of_same rfl
  | resume =>
    constructor
    · intro id o ho
      refine ⟨_, Option.map_eq_some_iff.mpr ⟨o, ho, rfl⟩, ?_⟩
      split <;> exact ⟨rfl, rfl, rfl, rfl⟩
    · intro id o ho
      obtain ⟨o₀, ho₀, _⟩ := Slice.reschedule_ops ho
      exact .inl ⟨o₀, ho₀⟩
  | publish _ _ hslices => exact .of_same (hslices k).ops

/-! ## The acts of a call -/

/-- A snapshot is not ahead of the log. -/
def Act.Within (head : Int) : Act → Prop
  | .publish _ seq => seq ≤ head
  | _ => True

/-- The act is one that the log and the queue account for. -/
structure Act.Allowed (L : Log) (head : Int) (D : Uuid → Prop) (v : View) (act : Act) : Prop where
  source : act.From L v
  within : act.Within head
  draws : ∀ id, act.Draws id → D id

/-- What the acts of a call make of a view. -/
structure View.Onward (L : Log) (head : Int) (D : Uuid → Prop) (v v' : View) : Prop where
  sound : v'.Sound L
  position : v'.position ≤ head
  retains : ∀ k, (v.slices k).Retains D (v'.slices k)
  holds : ∀ k id evidence, ¬ D id → (v.slices k).Holds L k id evidence →
    (v'.slices k).Holds L k id evidence

theorem Transition.position_le (hlog : L.Numbered head) (h : Transition act v v')
    (hallowed : act.Allowed L head D v) (hv : v.position ≤ head) : v'.position ≤ head := by
  cases h with
  | @move _ _ cause s n hposition =>
    cases cause with
    | feed _ e =>
      obtain ⟨_, rfl⟩ := hposition
      exact (hlog.range _ e hallowed.source).2
    | client | queue | conflict | outcome | resolve =>
      cases hposition
      exact hv
  | resume => exact hv
  | publish => exact hallowed.within

theorem Slice.Retains.mono {D' : Uuid → Prop} (h : s.Retains D s') (hD : ∀ id, D id → D' id) :
    s.Retains D' s' := ⟨h.kept, fun id o ho => (h.new id o ho).imp_right (hD id)⟩

theorem Transition.onward {v₀ : View} (hlog : L.Numbered head) (h : Transition act v v')
    (hallowed : act.Allowed L head D v) (hv : v₀.Onward L head D v) : v₀.Onward L head D v' where
  sound := h.sound hlog hallowed.source hv.sound
  position := h.position_le hlog hallowed hv.position
  retains := fun k => (hv.retains k).trans ((h.retains hv.sound.tidy).mono hallowed.draws)
  holds := by
    intro k id evidence hold hholds
    refine h.holds hlog hallowed.source hv.sound ?_ (hv.holds k id evidence hold hholds)
    exact fun hdraws => hold (hallowed.draws id hdraws)

theorem Path.onward {admits : Act → Prop} (hlog : L.Numbered head) (hv : v.Sound L)
    (hposition : v.position ≤ head)
    (hallowed : ∀ act u u', admits act → Transition act u u' → v.Onward L head D u →
      act.Allowed L head D u) (h : Path admits v v') : v.Onward L head D v' := by
  refine h.invariant (v.Onward L head D) ?_ ⟨hv, hposition, fun _ => .of_same rfl, fun _ _ _ _ h => h⟩
  intro act u u' hadmits htransition hu
  exact htransition.onward hlog (hallowed act u u' hadmits htransition hu) hu

/-! ## Stages -/

/-- The claim shows a write as it is in the queue. -/
structure Claim.Of (claim : Claim) (o : Outbox) : Prop where
  key : claim.key = o.key
  operation : claim.operation = o.operation
  precondition : claim.precondition = o.precondition
  value : claim.value = o.payload

/-- The claim is of an operation in the outbox. -/
def Claim.Queued (c : Cache) (claim : Claim) : Prop :=
  ∃ o, c.outbox.lookup claim.operationId = some o ∧ claim.Of o

/-- What has been fetched is the beginning of a snapshot, as long as the source has it. -/
def Staging.Sound (src : Source) (known : List Uuid) (staging : Staging) : Prop :=
  (staging.cursor = none ∧ staging.rows = []) ∨
    ∃ id offset, staging.cursor = some (.snap id offset) ∧ id ∈ known ∧
      ∀ snapshot, src.snapshots.lookup id = some snapshot →
        staging.rows = snapshot.rows.take offset

/-- What a worker holds came from the queue or from the log. -/
def Stage.Sound (setup : Setup) (world : World) : Stage → Prop
  | .idle => True
  | .holding claim => claim.Queued world.cache
  | .asking claim _ => claim.Queued world.cache
  | .waiting claim => claim.Queued world.cache
  | .acking _ result => ∃ m, world.source.log m = some result
  | .failing claim code evidence => claim.Queued world.cache ∧ (code = .revisionConflict →
      ∀ k, (world.cache.slice k).Holds world.source.log k claim.operationId evidence)
  | .pulling _ => True
  | .applying page => ∀ e ∈ page.events, ∃ m, world.source.log m = some e
  | .staging fetched => fetched.Sound world.source world.known
  | .publishing rows cursor _ => ∃ seq : Nat, cursor = .sync setup.source.id seq ∧
      seq ≤ world.source.counter ∧ Captures world.source.log rows seq

/-- The parts of the system agree. -/
structure World.Sound (setup : Setup) (world : World) : Prop where
  source : world.source.Sound setup.source world.known
  cache : world.cache.view.Sound world.source.log
  position : world.cache.position ≤ world.source.counter
  queued : ∀ id o, world.cache.outbox.lookup id = some o → id ∈ world.known
  stages : ∀ w, (world.workers w).Sound setup world
  sent : ∀ request ∈ world.sent, ∃ claim : Claim, claim.Queued world.cache ∧
    request = claim.request setup.relation

theorem World.Sound.stage {setup : Setup} {world : World} {stage : Stage} {w : Nat}
    (hs : world.Sound setup) (hw : world.workers w = stage) : stage.Sound setup world :=
  hw ▸ hs.stages w

/-- What stages rely on is still there. -/
structure World.Carries (world world' : World) : Prop where
  queued : ∀ claim : Claim, claim.Queued world.cache → claim.Queued world'.cache
  log : ∀ m e, world.source.log m = some e → world'.source.log m = some e
  head : world.source.counter ≤ world'.source.counter
  captures : ∀ rows (seq : Nat), seq ≤ world.source.counter →
    Captures world.source.log rows seq → Captures world'.source.log rows seq
  holds : ∀ k (claim : Claim) evidence, claim.Queued world.cache →
    (world.cache.slice k).Holds world.source.log k claim.operationId evidence →
    (world'.cache.slice k).Holds world'.source.log k claim.operationId evidence
  known : ∀ id ∈ world.known, id ∈ world'.known
  snapshots : ∀ id ∈ world.known, ∀ snapshot,
    world'.source.snapshots.lookup id = some snapshot →
      world.source.snapshots.lookup id = some snapshot

variable {setup : Setup} {world world' : World} {stage : Stage} {step : Step}

theorem Stage.Sound.carry (h : stage.Sound setup world) (hc : world.Carries world') :
    stage.Sound setup world' := by
  cases stage with
  | idle | pulling => trivial
  | holding claim | asking claim | waiting claim => exact hc.queued claim h
  | acking _ result =>
    obtain ⟨m, hm⟩ := h
    exact ⟨m, hc.log m result hm⟩
  | failing claim _ evidence =>
    exact ⟨hc.queued claim h.1, fun hcode k => hc.holds k claim evidence h.1 (h.2 hcode k)⟩
  | applying =>
    intro e he
    obtain ⟨m, hm⟩ := h e he
    exact ⟨m, hc.log m e hm⟩
  | staging =>
    rcases h with hstart | ⟨id, offset, hcursor, hid, hrows⟩
    · exact .inl hstart
    · exact .inr ⟨id, offset, hcursor, hc.known id hid, fun snapshot hsnapshot =>
        hrows snapshot (hc.snapshots id hid snapshot hsnapshot)⟩
  | publishing rows =>
    obtain ⟨seq, hcursor, hle, hcaptures⟩ := h
    exact ⟨seq, hcursor, hle.trans hc.head, hc.captures rows seq hle hcaptures⟩

/-! ## Changes -/

/-- How a step comes to make a call: a worker calls with what its stage holds. -/
def Call.Made (world : World) (step : Step) : Call → Prop
  | .ack now operation _ result => ∃ w claim, step = .ack w now ∧
      world.workers w = .acking claim result ∧ claim.operationId = operation
  | .fail draw now operation _ code evidence => ∃ w claim, step = .fail w now draw ∧
      world.workers w = .failing claim code evidence ∧ claim.operationId = operation
  | .apply now events _ => ∃ w page, step = .apply w now ∧
      world.workers w = .applying page ∧ page.events = events
  | .publish now rows cursor snapshotId => ∃ w sourceCursor, step = .publish w now ∧
      world.workers w = .publishing rows sourceCursor snapshotId ∧ cursor = some sourceCursor
  | _ => True

/-- The source has not taken up the write and does not accept it now. -/
structure World.Refuses (world : World) (claim : Claim) : Prop where
  unknown : world.source.operations.lookup claim.operationId = none
  fails : claim.precondition.holds (world.source.records.lookup claim.key) = false

/-- A stage that a worker may enter. A write that has failed with a conflict is one that the
source refuses. -/
structure Stage.Entered (setup : Setup) (world : World) (stage : Stage) : Prop where
  sound : stage.Sound setup world
  refused : ∀ claim evidence, stage = .failing claim .revisionConflict evidence →
    world.Refuses claim

/-- What a step does to the tables. -/
inductive Touch (setup : Setup) (step : Step) (world : World) : World → Prop where
  | skip : Touch setup step world world
  | call (call : Call) (hmade : call.Made world step) (hfresh : world.fresh call.draws = true) :
      Touch setup step world ((world.call setup call).learn call.draws)
  | mutate {draw : Uuid} {request : Request} (ids : List Uuid)
      (hfresh : world.fresh [draw] = true) (hdraw : draw ∈ ids)
      (hids : ∀ id, request.operationId = some id → id ∈ ids ++ world.known)
      (hwho : request ∈ world.sent ∨ step = .write draw request) :
      Touch setup step world
        ((world.atSource (sourceMutate setup.source draw request)).learn ids)
  | snapshot {draw : Uuid} {now : Int} {cursor : Option Cursor} {limit : Nat}
      (hfresh : world.fresh [draw] = true) :
      Touch setup step world
        ((world.atSource (sourceSnapshot setup.source draw now cursor limit)).learn [draw])

/-- What a step then does to a worker. -/
inductive Turn (setup : Setup) : World → World → Prop where
  | stage {world : World} (w : Nat) {stage : Stage} (hstage : stage.Entered setup world) :
      Turn setup world (world.setStage w stage)
  | send {world : World} {claim : Claim} (hclaim : claim.Queued world.cache) :
      Turn setup world { world with sent := claim.request setup.relation :: world.sent }

/-- The turns of workers that touch neither database. -/
abbrev Turns (setup : Setup) : World → World → Prop := Relation.ReflTransGen (Turn setup)

/-- A step changes the tables first and its worker after that. -/
def Advance (setup : Setup) (step : Step) (world world' : World) : Prop :=
  ∃ touched, Touch setup step world touched ∧ Turns setup touched world'

theorem Advance.turns (h : Turns setup world world') : Advance setup step world world' :=
  ⟨world, .skip, h⟩

theorem Advance.enters (w : Nat) (hstage : stage.Entered setup world) :
    Advance setup step world (world.setStage w stage) := .turns (.single (.stage w hstage))

/-- The parts of the system after a change. -/
theorem World.Sound.of_carries (hs : world.Sound setup) (hc : world.Carries world')
    (hsource : world'.source.Sound setup.source world'.known)
    (hcache : world'.cache.view.Sound world'.source.log)
    (hposition : world'.cache.position ≤ world'.source.counter)
    (hqueued : ∀ id o, world'.cache.outbox.lookup id = some o → id ∈ world'.known)
    (hworkers : world'.workers = world.workers) (hsent : world'.sent = world.sent) :
    world'.Sound setup where
  source := hsource
  cache := hcache
  position := hposition
  queued := hqueued
  stages := by
    intro w
    rw [hworkers]
    exact (hs.stages w).carry hc
  sent := by
    intro request hrequest
    rw [hsent] at hrequest
    obtain ⟨claim, hclaim, heq⟩ := hs.sent request hrequest
    exact ⟨claim, hc.queued claim hclaim, heq⟩

theorem World.fresh_iff {draws : List Uuid} :
    world.fresh draws = true ↔ draws.Nodup ∧ ∀ draw ∈ draws, draw ∉ world.known := by
  unfold World.fresh
  simp

/-- The tables of the source change, the cache does not. -/
theorem World.Sound.atSource {known : List Uuid} (hs : world.Sound setup)
    (hknown : ∀ id ∈ world.known, id ∈ known) (hsound : src.Sound setup.source known)
    (hlog : src.log = world.source.log ∧ src.counter = world.source.counter ∨
      world.source.log.Extends src.log world.source.counter ∧
      src.counter = world.source.counter + 1)
    (hsnapshots : ∀ id ∈ world.known, ∀ snapshot, src.snapshots.lookup id = some snapshot →
      world.source.snapshots.lookup id = some snapshot) :
    World.Sound setup { world with source := src, known := known } := by
  have hcounter : world.source.counter ≤ src.counter := by
    rcases hlog with ⟨_, heq⟩ | ⟨_, heq⟩ <;> omega
  have hposition : world.cache.position ≤ src.counter := hs.position.trans (by omega)
  have hcarries : world.Carries { world with source := src, known := known } := by
    refine ⟨fun _ h => h, ?_, hcounter, ?_, ?_, hknown, hsnapshots⟩
    · intro m e hm
      rcases hlog with ⟨heq, _⟩ | ⟨hext, _⟩
      · rw [heq]
        exact hm
      · exact hext.old m e hm
    · intro rows seq hle hcaptures
      rcases hlog with ⟨heq, _⟩ | ⟨hext, _⟩
      · rw [heq]
        exact hcaptures
      · exact hcaptures.extend hext (by omega)
    · intro k claim evidence _ hholds
      rcases hlog with ⟨heq, _⟩ | ⟨hext, _⟩
      · rw [heq]
        exact hholds
      · exact hholds.extend hext
  refine hs.of_carries hcarries hsound ?_ hposition ?_ rfl rfl
  · rcases hlog with ⟨heq, _⟩ | ⟨hext, _⟩
    · rw [heq]
      exact hs.cache
    · refine ⟨hs.cache.tidy, hs.cache.agrees, fun key => ?_⟩
      exact (hs.cache.follows key).extend hs.source.numbered (by omega) hext hs.position
  · intro id o ho
    exact hknown id (hs.queued id o ho)

/-- A uuid that is not in use is not in the log. -/
theorem World.Sound.unused (hs : world.Sound setup) (hdraw : draw ∉ world.known) :
    world.source.log.Unused draw :=
  fun m e hm hop => hdraw (hs.source.ids m e draw hm hop)

theorem Claim.Queued.known (hs : world.Sound setup)
    (h : claim.Queued world.cache) : claim.operationId ∈ world.known := by
  obtain ⟨o, ho, _⟩ := h
  exact hs.queued _ o ho

theorem Binding.counter?_sync {b : Binding} {binding : Uuid} {n : Nat}
    (h : b.counter? (some (.sync binding n)) = some seq) : seq = n := by
  by_cases hb : binding = b.sourceBindingId.getD b.id
  · exact (Option.some.inj ((if_pos hb).symm.trans h)).symm
  · cases (if_neg hb).symm.trans h

/-- The acts of a call that a step makes. -/
theorem Call.allowed {call : Call} {u u' : View} (hs : world.Sound setup)
    (hmade : call.Made world step) (hfresh : world.fresh call.draws = true)
    (hadmits : call.admits setup.cache act) (h : Transition act u u')
    (hu : world.cache.view.Onward world.source.log world.source.counter (· ∈ call.draws) u) :
    act.Allowed world.source.log world.source.counter (· ∈ call.draws) u := by
  have hnew := (World.fresh_iff.mp hfresh).2
  cases call with
  | put draw | remove draw =>
    cases hadmits
    refine ⟨hs.unused (hnew draw List.mem_cons_self), trivial, ?_⟩
    rintro _ rfl
    exact List.mem_cons_self
  | writeRows _ changes =>
    obtain ⟨key, change, hchange, rfl⟩ := hadmits
    have hdraw : change.2 ∈ changes.map Prod.snd := List.mem_map_of_mem hchange
    refine ⟨hs.unused (hnew _ hdraw), trivial, ?_⟩
    rintro _ rfl
    exact hdraw
  | resolve draw =>
    obtain ⟨key, rfl⟩ := hadmits
    refine ⟨hs.unused (hnew draw List.mem_cons_self), trivial, ?_⟩
    rintro _ rfl
    exact List.mem_cons_self
  | claim =>
    obtain ⟨key, rfl⟩ := hadmits
    exact ⟨trivial, trivial, fun _ hdraws => hdraws.elim⟩
  | ack =>
    obtain ⟨key, rfl⟩ := hadmits
    obtain ⟨w, claim, _, hstage, _⟩ := hmade
    have hsound := hs.stage hstage
    exact ⟨hsound, trivial, fun _ hdraws => hdraws.elim⟩
  | fail draw =>
    obtain ⟨key, rfl | ⟨hcode, rfl⟩⟩ := hadmits
    · exact ⟨trivial, trivial, fun _ hdraws => hdraws.elim⟩
    · obtain ⟨w, claim, _, hstage, hid⟩ := hmade
      have hsound := hs.stage hstage
      obtain ⟨hqueued, hholds⟩ := hsound
      have hknown := hqueued.known hs
      rw [hid] at hholds hknown
      refine ⟨?_, trivial, fun _ hdraws => hdraws.elim⟩
      -- the conflict is recorded for a write that is open
      intro r hr
      cases h with
      | move _ hmove =>
        cases hmove with
        | @conflict _ o _ _ hop hflight =>
          have hold : o.operationId ∉ [draw] := fun hin => hnew _ hin hknown
          exact hu.holds key _ _ hold (hholds hcode key) r o hr hop
            (OutboxState.open_of_live (OutboxState.live_of_inFlight hflight))
  | apply =>
    obtain ⟨key, seq, e, he, rfl⟩ := hadmits
    obtain ⟨w, page, _, hstage, rfl⟩ := hmade
    have hsound := hs.stage hstage
    obtain ⟨m, hm⟩ := hsound e he
    refine ⟨?_, trivial, fun _ hdraws => hdraws.elim⟩
    cases h with
    | move _ hmove =>
      have hseq := hs.source.numbered.seq m e hm
      cases hseq.symm.trans hmove.feed_key.2
      exact hm
  | publish =>
    obtain ⟨seq, hseq, rfl⟩ := hadmits
    obtain ⟨w, sourceCursor, _, hstage, rfl⟩ := hmade
    have hsound := hs.stage hstage
    obtain ⟨seq', rfl, hle, hcaptures⟩ := hsound
    obtain rfl := Binding.counter?_sync hseq
    exact ⟨hcaptures, Int.ofNat_le.mpr hle, fun _ hdraws => hdraws.elim⟩
  | pause => exact hadmits.elim
  | resume =>
    cases hadmits
    exact ⟨trivial, trivial, fun _ hdraws => hdraws.elim⟩

theorem World.Sound.onward {call : Call} (hs : world.Sound setup) (hmade : call.Made world step)
    (hfresh : world.fresh call.draws = true) :
    world.cache.view.Onward world.source.log world.source.counter (· ∈ call.draws)
      (world.call setup call).cache.view := by
  have hpath : Path (call.admits setup.cache) world.cache.view (world.call setup call).cache.view :=
    Cache.step_path hs.cache.tidy rfl
  exact hpath.onward hs.source.numbered hs.cache hs.position
    fun act u u' hadmits htransition hu => call.allowed hs hmade hfresh hadmits htransition hu

/-- A queued write is queued after a call. -/
theorem Claim.Queued.onward {c c' : Cache} (h : c.view.Onward L head D c'.view)
    (hclaim : claim.Queued c) : claim.Queued c' := by
  obtain ⟨o, ho, hof⟩ := hclaim
  obtain ⟨o', ho', hsame⟩ := (h.retains o.key).kept _ o (slice_ops_iff.mpr ⟨ho, rfl⟩)
  exact ⟨o', (slice_ops_iff.mp ho').1, hof.key.trans hsame.key.symm,
    hof.operation.trans hsame.operation.symm, hof.precondition.trans hsame.precondition.symm,
    hof.value.trans hsame.payload.symm⟩

theorem World.Sound.call {call : Call} (hs : world.Sound setup) (hmade : call.Made world step)
    (hfresh : world.fresh call.draws = true) :
    ((world.call setup call).learn call.draws).Sound setup := by
  have honward := hs.onward hmade hfresh
  have hnew := (World.fresh_iff.mp hfresh).2
  have hknown : ∀ id ∈ world.known, id ∈ call.draws ++ world.known :=
    fun id hid => List.mem_append_right _ hid
  have hcarries : world.Carries ((world.call setup call).learn call.draws) := by
    refine ⟨fun _ hclaim => hclaim.onward honward, fun _ _ hm => hm, le_refl _, fun _ _ _ h => h,
      ?_, hknown, fun _ _ _ h => h⟩
    intro k claim evidence hclaim hholds
    exact honward.holds k _ evidence (fun hin => hnew _ hin (hclaim.known hs)) hholds
  refine hs.of_carries hcarries (hs.source.learn hknown) honward.sound honward.position ?_ rfl rfl
  intro id o ho
  rcases (honward.retains o.key).new id o (slice_ops_iff.mpr ⟨ho, rfl⟩) with ⟨o', ho'⟩ | hdrawn
  · exact hknown id (hs.queued id o' (slice_ops_iff.mp ho').1)
  · exact List.mem_append_left _ hdrawn

theorem World.Sound.learn (hs : world.Sound setup) (ids : List Uuid) :
    World.Sound setup { world with known := ids ++ world.known } := by
  have hknown : ∀ id ∈ world.known, id ∈ ids ++ world.known :=
    fun id hid => List.mem_append_right _ hid
  exact hs.atSource hknown (hs.source.learn hknown) (.inl ⟨rfl, rfl⟩) fun _ _ _ h => h

theorem World.Sound.mutate {request : Request} {ids : List Uuid} (hs : world.Sound setup)
    (hfresh : world.fresh [draw] = true) (hdraw : draw ∈ ids)
    (hids : ∀ id, request.operationId = some id → id ∈ ids ++ world.known) :
    ((world.atSource (sourceMutate setup.source draw request)).learn ids).Sound setup := by
  have hnew : draw ∉ world.known := (World.fresh_iff.mp hfresh).2 draw List.mem_cons_self
  have hknown : ∀ id ∈ world.known, id ∈ ids ++ world.known :=
    fun id hid => List.mem_append_right _ hid
  have hsame := hs.learn ids
  have hensures : Ensures (sourceMutate setup.source draw request) world.source fun _ src =>
      World.Sound setup { world with source := src, known := ids ++ world.known } := by
    refine ensures_sourceMutate ?_ ?_
    · intro id row _ _ _
      exact hsame
    · intro id mutation hid _ hnone _
      exact hs.atSource hknown (hs.source.mutated hnew hnone hknown (List.mem_append_left _ hdraw)
        (hids id hid)) (.inr ⟨hs.source.extends, rfl⟩) fun _ _ _ h => h
  exact hensures.commit_state hsame

theorem World.Sound.snapshot {cursor : Option Cursor} (hs : world.Sound setup)
    (hfresh : world.fresh [draw] = true) :
    ((world.atSource (sourceSnapshot setup.source draw now cursor limit)).learn [draw]).Sound
      setup := by
  have hnew : draw ∉ world.known := (World.fresh_iff.mp hfresh).2 draw List.mem_cons_self
  have hknown : ∀ id ∈ world.known, id ∈ [draw] ++ world.known :=
    fun id hid => List.mem_append_right _ hid
  have hsame := hs.learn [draw]
  have hensures : Ensures (sourceSnapshot setup.source draw now cursor limit) world.source
      fun _ src => World.Sound setup { world with source := src, known := [draw] ++ world.known } := by
    refine ensures_sourceSnapshot ?_ ?_
    · intro _
      refine hs.atSource hknown (hs.source.captured hknown List.mem_cons_self) (.inl ⟨rfl, rfl⟩) ?_
      intro id hid snapshot hsnapshot
      rcases captured_snapshots hsnapshot with ⟨rfl, _⟩ | hold
      · exact absurd hid hnew
      · exact hold
    · intro id offset snapshot _ _
      exact hsame
  exact hensures.commit_state hsame

theorem Touch.sound (h : Touch setup step world world') (hs : world.Sound setup) :
    world'.Sound setup := by
  cases h with
  | skip => exact hs
  | call call hmade hfresh => exact hs.call hmade hfresh
  | mutate _ hfresh hdraw hids => exact hs.mutate hfresh hdraw hids
  | snapshot hfresh => exact hs.snapshot hfresh

/-- The log only grows. -/
theorem Touch.grows (h : Touch setup step world world') (hs : world.Sound setup) :
    ∀ m e, world.source.log m = some e → world'.source.log m = some e := by
  have hsame : ∀ m e, world.source.log m = some e → world.source.log m = some e := fun _ _ h => h
  cases h with
  | skip | call => exact hsame
  | @mutate draw request =>
    have hensures : Ensures (sourceMutate setup.source draw request) world.source
        fun _ src => ∀ m e, world.source.log m = some e → src.log m = some e := by
      refine ensures_sourceMutate ?_ ?_
      · intro _ _ _ _ _
        exact hsame
      · intro _ _ _ _ _ _
        exact hs.source.extends.old
    exact hensures.commit_state hsame
  | @snapshot draw now cursor limit =>
    have hensures : Ensures (sourceSnapshot setup.source draw now cursor limit) world.source
        fun _ src => ∀ m e, world.source.log m = some e → src.log m = some e := by
      refine ensures_sourceSnapshot ?_ ?_
      · intro _
        exact hsame
      · intro _ _ _ _ _
        exact hsame
    exact hensures.commit_state hsame

theorem Turn.sound (h : Turn setup world world') (hs : world.Sound setup) :
    world'.Sound setup := by
  cases h with
  | @stage w stage hstage =>
    refine ⟨hs.source, hs.cache, hs.position, hs.queued, ?_, hs.sent⟩
    intro w'
    have hcarries : world.Carries (world.setStage w stage) :=
      ⟨fun _ h => h, fun _ _ h => h, le_refl _, fun _ _ _ h => h, fun _ _ _ _ h => h,
        fun _ h => h, fun _ _ _ h => h⟩
    by_cases hw : w' = w
    · subst hw
      have hself : (world.setStage w' stage).workers w' = stage := Function.update_self ..
      rw [hself]
      exact hstage.sound.carry hcarries
    · have hother : (world.setStage w stage).workers w' = world.workers w' :=
        Function.update_of_ne hw ..
      rw [hother]
      exact (hs.stages w').carry hcarries
  | @send claim hclaim =>
    refine ⟨hs.source, hs.cache, hs.position, hs.queued, ?_, ?_⟩
    · intro w
      exact (hs.stages w).carry ⟨fun _ h => h, fun _ _ h => h, le_refl _, fun _ _ _ h => h,
        fun _ _ _ _ h => h, fun _ h => h, fun _ _ _ h => h⟩
    · intro request hrequest
      rcases List.mem_cons.mp hrequest with rfl | hold
      · exact ⟨claim, hclaim, rfl⟩
      · exact hs.sent request hold

/-- Turns leave the tables alone. -/
theorem Turns.same (h : Turns setup world world') :
    world'.cache = world.cache ∧ world'.source = world.source ∧ world'.known = world.known := by
  induction h with
  | refl => exact ⟨rfl, rfl, rfl⟩
  | tail _ hturn ih => cases hturn <;> exact ih

theorem Advance.sound (h : Advance setup step world world') (hs : world.Sound setup) :
    world'.Sound setup := by
  obtain ⟨touched, htouch, hturns⟩ := h
  have htouched := htouch.sound hs
  induction hturns with
  | refl => exact htouched
  | tail _ hturn ih => exact hturn.sound ih

/-! ## What workers are left with -/

variable (world) in

/-- A claim that is handed out is one of the queue. -/
theorem sound_claimed {lease : Option Int} :
    (Stage.claimed ((claimOutbox setup.cache now lease).commit world.cache).2).Sound setup
      (world.call setup (.claim now lease)) := by
  have hcache : (world.call setup (.claim now lease)).cache =
      ((claimOutbox setup.cache now lease).commit world.cache).1 := commit_map
  have hensures : Ensures (claimOutbox setup.cache now lease) world.cache fun reply c' =>
      True ∧ ∀ claim, reply = some claim → ∃ o, c'.outbox.lookup o.operationId = some o ∧
        o.firstAttemptAt.isSome = true ∧ claim = o.claim :=
    ensures_claimOutbox (fun _ => True) (fun _ _ _ _ _ _ => trivial) trivial
  cases hcommit : (claimOutbox setup.cache now lease).commit world.cache with
  | mk _ reply =>
    rw [hcommit] at hcache
    cases reply with
    | error => trivial
    | ok reply =>
      cases reply with
      | none => trivial
      | some claim =>
        obtain ⟨o, ho, _, rfl⟩ := (hensures.of_commit hcommit).2 claim rfl
        exact ⟨o, by rw [hcache]; exact ho, rfl, rfl, rfl, rfl⟩

/-- What the source reports of a key is not older than the record of a cache. -/
theorem Source.Sound.evidence {b : Binding} {known : List Uuid} {r : Record}
    (hs : src.Sound b known) (hf : s.Follows src.log n key) (hr : s.record = some r) :
    Evidence src.log key r.sourceCounter (conflictDetail key (src.records.lookup key)) := by
  cases hrow : src.records.lookup key with
  | none =>
    refine ⟨0, rfl, ?_, fun hsome => by cases hsome⟩
    rcases hf.reached r hr with hzero | ⟨m, e, hat, _⟩
    · exact le_of_eq hzero
    · obtain ⟨row, hsome, _⟩ := hs.latest key m e hat
      cases hrow.symm.trans hsome
  | some row =>
    obtain ⟨e, hat, hsame⟩ := hs.current key row hrow
    refine ⟨row.counter, rfl, ?_, fun _ => ⟨e, hat, hsame.revision, hsame.value, hsame.removes⟩⟩
    rcases hf.reached r hr with hzero | ⟨m, e', hat', hle⟩
    · have := (hs.numbered.range _ e hat.1).1
      omega
    · obtain ⟨row', hsome, hle'⟩ := hs.latest key m e' hat'
      cases hrow.symm.trans hsome
      exact hle.trans hle'

/-- What the source reports of a queued write is not older than its record. -/
theorem World.Sound.holds (hs : world.Sound setup) (hclaim : claim.Queued world.cache) :
    (world.cache.slice k).Holds world.source.log k claim.operationId
      (conflictDetail claim.key (world.source.records.lookup claim.key)) := by
  obtain ⟨o, ho, hof⟩ := hclaim
  intro r row hr hrow _
  obtain ⟨hlookup, hkey⟩ := slice_ops_iff.mp hrow
  cases ho.symm.trans hlookup
  have hk : claim.key = k := hof.key.trans hkey
  subst hk
  exact hs.source.evidence (hs.cache.follows _) hr

theorem Message.code_eq {message : Message} (h : message.code = .revisionConflict) :
    message = .revisionConflict := by
  cases message <;> first | rfl | cases h

variable (world) in

/-- The answer to a mutation. -/
theorem entered_answered {known : List Uuid} {reply : Except Raised Event} (hs : world.Sound setup)
    (hclaim : claim.Queued world.cache)
    (hcommit : (sourceMutate setup.source draw (claim.request setup.relation)).commit world.source =
      (src, reply)) :
    (Stage.answered claim reply).Entered setup { world with source := src, known := known } := by
  cases reply with
  | ok result =>
    refine ⟨?_, fun _ _ h => by cases h⟩
    have hensures : Ensures (sourceMutate setup.source draw (claim.request setup.relation))
        world.source fun result src => ∃ m, src.log m = some result := by
      refine ensures_sourceMutate ?_ ?_
      · intro id row _ hrow _
        exact (hs.source.remembered id row hrow).1
      · intro id mutation _ _ _ _
        exact ⟨_, hs.source.log_new⟩
    exact hensures.of_commit hcommit
  | error e =>
    obtain ⟨rfl, hraised⟩ := raises_sourceMutate.of_commit hcommit
    have hrefused : e.message.code = .revisionConflict → world.Refuses claim ∧
        e.evidence = conflictDetail claim.key (world.source.records.lookup claim.key) := by
      intro hcode
      obtain ⟨id, key, hid, hkey, hnone, hfails, hdetail⟩ := hraised (Message.code_eq hcode)
      cases hid
      cases hkey
      refine ⟨⟨hnone, hfails⟩, ?_⟩
      unfold Raised.evidence
      rw [hdetail]
      rfl
    refine ⟨⟨hclaim, ?_⟩, ?_⟩
    · intro hcode k
      rw [(hrefused hcode).2]
      exact hs.holds hclaim
    · intro claim' evidence heq
      injection heq with hclaim' hcode
      subst hclaim'
      obtain ⟨hunknown, hfails⟩ := (hrefused hcode).1
      exact ⟨hunknown, hfails⟩

/-- The next page continues the beginning of the snapshot, and the last one ends it. -/
theorem entered_next {snapshot : Snapshot} {offset : Nat} (hs : world.Sound setup)
    (hlookup : world.source.snapshots.lookup id = some snapshot)
    (hrows : staging.rows = snapshot.rows.take offset) :
    (staging.next (snapshot.page offset limit)).Entered setup world := by
  have hid : snapshot.id = id := Keyed.lookup_key hlookup
  obtain ⟨hknown, seq, hcursor, hle, hcaptures⟩ := hs.source.snapshots id snapshot hlookup
  have htake : staging.rows ++ (snapshot.page offset limit).rows =
      snapshot.rows.take (offset + (snapshot.page offset limit).rows.length) := by
    have hpage : (snapshot.page offset limit).rows = (snapshot.rows.drop offset).take limit := rfl
    rw [hrows, List.take_add]
    exact congrArg _ (List.prefix_iff_eq_take.mp (List.take_prefix limit _))
  unfold Staging.next
  split
  case isFalse => exact ⟨trivial, fun _ _ h => by cases h⟩
  case isTrue =>
    split
    case h_1 hend =>
      have hlength : snapshot.rows.length ≤ offset + (snapshot.page offset limit).rows.length := by
        by_contra hlt
        cases (if_pos (not_le.mp hlt)).symm.trans hend
      refine ⟨⟨seq, hcursor, hle, ?_⟩, fun _ _ h => by cases h⟩
      rw [htake, List.take_of_length_le hlength]
      exact hcaptures
    case h_2 next hnext =>
      split
      case isTrue => exact ⟨trivial, fun _ _ h => by cases h⟩
      case isFalse =>
        have hsnap : next = .snap id (offset + (snapshot.page offset limit).rows.length) := by
          have hnext' : (if _ then _ else _) = some next := hnext
          split at hnext'
          · rw [← hid]
            exact (Option.some.inj hnext').symm
          · cases hnext'
        refine ⟨.inr ⟨id, _, congrArg some hsnap, hknown, ?_⟩, fun _ _ h => by cases h⟩
        intro snapshot' hlookup'
        cases hlookup.symm.trans hlookup'
        exact htake

variable (world) in

/-- A page of a snapshot. -/
theorem entered_page {reply : Except Raised SnapshotPage}
    (hstaging : staging.Sound world.source world.known)
    (hs : World.Sound setup { world with source := src, known := [draw] ++ world.known })
    (hcommit : (sourceSnapshot setup.source draw now staging.cursor limit).commit world.source =
      (src, reply)) :
    (Stage.fetched staging.next reply).Entered setup
      { world with source := src, known := [draw] ++ world.known } := by
  cases reply with
  | error => exact ⟨trivial, fun _ _ h => by cases h⟩
  | ok page =>
    have hensures : Ensures (sourceSnapshot setup.source draw now staging.cursor limit)
        world.source fun page src => ∃ id offset snapshot,
          src.snapshots.lookup id = some snapshot ∧ page = snapshot.page offset limit ∧
            staging.rows = snapshot.rows.take offset := by
      refine ensures_sourceSnapshot ?_ ?_
      · intro hnone
        refine ⟨draw, 0, world.source.capture setup.source draw now, ?_, rfl, ?_⟩
        · exact Keyed.lookup_insert_self
        · rcases hstaging with ⟨_, hrows⟩ | ⟨id, offset, hcursor, _⟩
          · exact hrows
          · cases hnone.symm.trans hcursor
      · intro id offset snapshot hcursor hlookup
        refine ⟨id, offset, snapshot, hlookup, rfl, ?_⟩
        rcases hstaging with ⟨hnone, _⟩ | ⟨id', offset', hcursor', _, hrows⟩
        · cases hnone.symm.trans hcursor
        · cases hcursor.symm.trans hcursor'
          exact hrows snapshot hlookup
    obtain ⟨id, offset, snapshot, hlookup, rfl, hrows⟩ := hensures.of_commit hcommit
    exact entered_next hs hlookup hrows

/-! ## Steps -/

/-- A stage without evidence against a write. -/
theorem Stage.Sound.entered (h : stage.Sound setup world)
    (hne : ∀ claim evidence, stage ≠ .failing claim .revisionConflict evidence) :
    stage.Entered setup world := ⟨h, fun claim evidence heq => absurd heq (hne claim evidence)⟩

/-- A failure other than a conflict. -/
theorem entered_failing {code : SyncCode} {evidence : Event} (hclaim : claim.Queued world.cache)
    (hcode : code ≠ .revisionConflict) :
    (Stage.failing claim code evidence).Entered setup world := by
  refine ⟨⟨hclaim, fun h => absurd h hcode⟩, fun _ _ heq => ?_⟩
  injection heq with _ heq
  exact absurd heq hcode

theorem turns_send (hclaim : claim.Queued world.cache) :
    Turns setup world (world.send setup w claim) := by
  unfold World.send
  split
  case isTrue =>
    have hstage : (Stage.waiting claim).Sound setup world := hclaim
    refine .tail (.single (.stage w (hstage.entered fun _ _ h => by cases h))) ?_
    exact .send hclaim
  case isFalse => exact .single (.stage w (entered_failing hclaim (by decide)))

theorem turns_remembered {expired : Bool} (hs : world.Sound setup)
    (hclaim : claim.Queued world.cache) :
    Turns setup world (world.remembered setup w claim expired
      ((sourceOperation setup.source claim.operationId).commit world.source).2) := by
  cases hcommit : (sourceOperation setup.source claim.operationId).commit world.source with
  | mk _ reply =>
    cases reply with
    | error e =>
      have hraises : Raises (sourceOperation setup.source claim.operationId) world.source
          fun e => e.message.code ≠ .revisionConflict := by
        unfold sourceOperation
        rw [raises_bind]
        refine ⟨raises_assertAccess (by decide) (by decide), ensures_assertAccess ?_⟩
        simp only [raises_bind, raises_get, raises_pure, ensures_get, and_self]
      exact .single (.stage w (entered_failing hclaim (hraises.of_commit hcommit).2))
    | ok outcome =>
      cases outcome with
      | none =>
        show Turns setup world (if expired then _ else _)
        split
        · exact .single (.stage w (entered_failing hclaim (by decide)))
        · exact turns_send hclaim
      | some result =>
        have hensures : Ensures (sourceOperation setup.source claim.operationId) world.source
            fun outcome _ => ∀ result, outcome = some result →
              ∃ m, world.source.log m = some result := by
          unfold sourceOperation
          simp only [ensures_bind]
          refine ensures_assertAccess ?_
          simp only [ensures_get, ensures_pure]
          intro result hresult
          obtain ⟨row, hrow, rfl⟩ := Option.map_eq_some_iff.mp hresult
          exact (hs.source.remembered _ row hrow).1
        have hstage : (Stage.acking claim result).Sound setup world :=
          hensures.of_commit hcommit result rfl
        exact .single (.stage w (hstage.entered fun _ _ h => by cases h))

theorem entered_pulled {checkpoint : Option Checkpoint} :
    (Stage.pulled checkpoint).Entered setup world := by
  unfold Stage.pulled
  split
  case isTrue => exact ⟨trivial, fun _ _ h => by cases h⟩
  case isFalse =>
    split
    case h_1 => exact ⟨trivial, fun _ _ h => by cases h⟩
    case h_2 => exact ⟨.inl ⟨rfl, rfl⟩, fun _ _ h => by cases h⟩

theorem World.Sound.advance (hs : world.Sound setup) (h : world.step setup step = some world') :
    Advance setup step world world' := by
  cases step with simp only [World.step, Option.ite_none_right_eq_some] at h
  | client call =>
    obtain ⟨⟨hclient, hfresh⟩, h⟩ := h
    cases h
    refine ⟨_, .call call ?_ hfresh, .refl⟩
    cases call <;> trivial
  | write =>
    obtain ⟨hfresh, h⟩ := h
    cases h
    refine ⟨_, .mutate _ hfresh List.mem_cons_self ?_ (.inr rfl), .refl⟩
    intro id hid
    rw [hid]
    exact List.mem_append_left _ (List.mem_cons_of_mem _ List.mem_cons_self)
  | claim w now lease =>
    split at h
    case h_2 => cases h
    case h_1 =>
      cases h
      refine ⟨_, .call (.claim now lease) trivial rfl, .single (.stage w ?_)⟩
      refine (sound_claimed world).entered ?_
      intro claim evidence
      unfold Stage.claimed
      split <;> exact fun h => by cases h
  | deliver w clock timeout =>
    split at h
    case h_2 => cases h
    case h_1 claim hw =>
      have hclaim : claim.Queued world.cache := hs.stage hw
      split at h
      case isTrue =>
        cases h
        have hstage : (Stage.asking claim (claim.expired clock timeout)).Sound setup world := hclaim
        exact .enters w (hstage.entered fun _ _ h => by cases h)
      case isFalse =>
        cases h
        exact .turns (turns_send hclaim)
  | ask =>
    split at h
    case h_2 => cases h
    case h_1 hw =>
      cases h
      have hclaim := hs.stage hw
      exact .turns (turns_remembered hs hclaim)
  | execute draw request =>
    obtain ⟨⟨hsent, hfresh⟩, h⟩ := h
    cases h
    refine ⟨_, .mutate [draw] hfresh List.mem_cons_self ?_ (.inl hsent), ?_⟩
    · intro id hid
      obtain ⟨claim, hclaim, rfl⟩ := hs.sent request hsent
      cases hid
      exact List.mem_append_right _ (hclaim.known hs)
    · unfold World.answer
      split
      case h_1 => exact .refl
      case h_2 w =>
        split
        case h_2 => exact .refl
        case h_1 claim hw =>
          split
          case isFalse => exact .refl
          case isTrue heq =>
            subst heq
            have hwaiting : world.workers w = .waiting claim := hw
            have hclaim := hs.stage hwaiting
            exact .single (.stage w (entered_answered world hs hclaim rfl))
  | lose w =>
    split at h
    case h_1 hw | h_2 hw =>
      cases h
      exact .enters w (entered_failing (hs.stage hw) (by decide))
    case h_3 => cases h
  | ack w now =>
    split at h
    case h_2 => cases h
    case h_1 claim result hw =>
      cases h
      exact ⟨_, .call (.ack now claim.operationId (some claim.fencingToken) result)
        ⟨w, claim, rfl, hw, rfl⟩ rfl, .single (.stage w ⟨trivial, fun _ _ h => by cases h⟩)⟩
  | fail w now draw =>
    split at h
    case h_2 => cases h
    case h_1 claim code evidence hw =>
      simp only [Option.ite_none_right_eq_some] at h
      obtain ⟨hfresh, h⟩ := h
      cases h
      exact ⟨_, .call (.fail draw now claim.operationId (some claim.fencingToken) code evidence)
        ⟨w, claim, rfl, hw, rfl⟩ hfresh, .single (.stage w ⟨trivial, fun _ _ h => by cases h⟩)⟩
  | pull w =>
    split at h
    case h_2 => cases h
    case h_1 =>
      cases h
      exact .enters w entered_pulled
  | changes w =>
    split at h
    case h_2 => cases h
    case h_1 cursor hw =>
      cases h
      refine .enters w ?_
      cases hcommit : (sourceChanges setup.source (some cursor) 500).commit world.source with
      | mk _ reply =>
        cases reply with
        | error => exact ⟨trivial, fun _ _ h => by cases h⟩
        | ok =>
          exact ⟨((ensures_sourceChanges hs.source).of_commit hcommit).2,
            fun _ _ h => by cases h⟩
  | apply w now =>
    split at h
    case h_2 => cases h
    case h_1 page hw =>
      cases h
      exact ⟨_, .call (.apply now page.events (some page.nextCursor)) ⟨w, page, rfl, hw, rfl⟩ rfl,
        .single (.stage w ⟨trivial, fun _ _ h => by cases h⟩)⟩
  | snapshot w =>
    split at h
    case h_2 => cases h
    case h_1 =>
      cases h
      exact .enters w ⟨.inl ⟨rfl, rfl⟩, fun _ _ h => by cases h⟩
  | page w =>
    split at h
    case h_2 => cases h
    case h_1 hw =>
      simp only [Option.ite_none_right_eq_some] at h
      obtain ⟨hfresh, h⟩ := h
      cases h
      have hstaging := hs.stage hw
      exact ⟨_, .snapshot hfresh,
        .single (.stage w (entered_page world hstaging (hs.snapshot hfresh) rfl))⟩
  | publish w now =>
    split at h
    case h_2 => cases h
    case h_1 rows cursor snapshotId hw =>
      cases h
      exact ⟨_, .call (.publish now rows (some cursor) snapshotId) ⟨w, cursor, rfl, hw, rfl⟩ rfl,
        .single (.stage w ⟨trivial, fun _ _ h => by cases h⟩)⟩
  | pause =>
    cases h
    exact ⟨_, .call .pause trivial rfl, .refl⟩
  | resume now =>
    cases h
    exact ⟨_, .call (.resume now) trivial rfl, .refl⟩
  | stop w =>
    cases h
    exact .enters w ⟨trivial, fun _ _ h => by cases h⟩

/-! ## Runs -/

theorem sound_start : World.Sound setup {} := by
  refine ⟨sound_empty, ⟨tidy_empty, agrees_empty, ?_⟩, le_refl _, ?_, fun _ => trivial, ?_⟩
  · intro key
    refine ⟨?_, ?_, ?_, ?_, ?_, ?_⟩
    · intro m e hat
      cases hat.1
    · intro r hr
      cases hr
    · intro r hr
      cases hr
    · intro r id o m e hr
      cases hr
    · intro r id conflict hr
      cases hr
    · intro id d hd
      cases (slice_deferred_iff.mp hd).1
  · intro id o ho
    cases ho
  · intro request hrequest
    cases hrequest

/-- What the steps of a run keep, each under its condition. -/
theorem run_along {C : World → Step → Prop} (I : World → Prop)
    (hI : ∀ world step world', world.Sound setup → I world → C world step →
      Advance setup step world world' → I world') (hs : world.Sound setup) (hw : I world)
    (hall : Foundation.Runs.All (World.next setup) C world steps)
    (h : Foundation.Runs.run (World.next setup) world steps = some (world', outputs)) :
    world'.Sound setup ∧ I world' := by
  refine Foundation.Runs.run_invariant_of_all (fun world => world.Sound setup ∧ I world) ?_
    ⟨hs, hw⟩ hall h
  intro u step u' output ⟨hu, hIu⟩ hstep hnext
  obtain ⟨_, hto, heq⟩ := Option.map_eq_some_iff.mp hnext
  cases heq
  have hadvance := hu.advance hto
  exact ⟨hadvance.sound hu, hI u step u' hu hIu hstep hadvance⟩

theorem World.Sound.run (hs : world.Sound setup)
    (h : Foundation.Runs.run (World.next setup) world steps = some (world', outputs)) :
    world'.Sound setup := by
  refine (run_along (C := fun _ _ => True) (fun _ => True) ?_ hs trivial
    (.of_mem fun _ _ _ => trivial) h).1
  intros
  trivial

theorem run_sound (h : Foundation.Runs.run (World.next setup) {} steps = some (world, outputs)) :
    world.Sound setup := sound_start.run h

end NoizuMcp.Sync
