import NoizuMcp.Sync.SourceLog
import NoizuMcp.Sync.Users

/-!
# Isolation of bindings

An application user and the bindings that are not its own. `AgreesFor` relates two stores
that differ only in the rows of bindings that are disabled or of another role. Every call
takes related stores to related stores, with the same answer (`UserCall.agrees`), and
changes no guarded row of a binding that the user may not write (`UserCall.keeps`);
`isolated` is both for whole sessions.

A function is refused before it reads (`Denies`) or, if the binding may be read but not
written, before it writes (`Sealed`).
-/

set_option autoImplicit false

namespace NoizuMcp.Sync

open Foundation (Keyed Tx)

open Foundation.Tx

open Protocol (Json)

variable {σ α β : Type} {user : String} {s s' : Store} {id : Uuid} {b : Binding}

/-! ## Functions of a binding -/

/-- A binding that is disabled is refused, with an error that does not depend on its
rows. -/
def Denies (f : Binding → Tx σ Raised α) : Prop :=
  ∀ b, b.enabled = false → ∃ e, ∀ rows, f b rows = .error e

/-- A binding that is disabled or read-only keeps its rows. -/
def Sealed (f : Binding → Tx σ Raised α) : Prop :=
  ∀ b rows, b.enabled = false ∨ b.readWrite = false → Ensures (f b) rows fun _ rows' => rows' = rows

/-- Nothing is done but through `f`. -/
theorem assertAccess_denied (h : b.enabled = false) (write : Bool) (f : Unit → Tx σ Raised α)
    (rows : σ) : (assertAccess b write >>= f) rows = .error Message.permissionDenied.raised := by
  unfold assertAccess
  rw [bind_assoc, raiseIf_bind_apply, if_pos h]

theorem denies_assertAccess (write : Bool) (f : Binding → Unit → Tx σ Raised α) :
    Denies fun b => assertAccess b write >>= f b := by
  intro b h
  exact ⟨_, fun rows => assertAccess_denied h write (f b) rows⟩

/-- Nothing comes after the check of a writer. -/
theorem ensures_assertAccess_sealed (h : b.enabled = false ∨ b.readWrite = false)
    {f : Unit → Tx σ Raised α} {rows : σ} {Q : α → σ → Prop} :
    Ensures (assertAccess b true >>= f) rows Q := by
  unfold assertAccess
  simp only [ensures_bind, ensures_raiseIf]
  intro henabled hwrite
  rcases h with h | h
  · exact absurd h henabled
  · exact absurd ⟨trivial, h⟩ hwrite

section Cache

variable {draw : Uuid} {now : Int} {key : Json} {payload : Option Json} {expected : Option Int}
  {strategy : Option Strategy} {conflict : Uuid} {old : Option Record} {row : RowStatement}

theorem resolve_disabled (h : b.enabled = false) (c : Cache) :
    resolve b draw now conflict strategy expected c = .error Message.permissionDenied.raised := by
  refine (get_bind_apply _).trans ?_
  -- a conflict that is not there is refused like one of another binding
  cases c.conflicts.lookup conflict with
  | none => rfl
  | some => exact assertAccess_denied h true _ c

theorem denies_resolve : Denies fun b => resolve b draw now conflict strategy expected := by
  intro b h
  exact ⟨_, resolve_disabled h⟩

theorem sealed_resolve : Sealed fun b => resolve b draw now conflict strategy expected := by
  intro b c h
  refine ensures_bind.mpr (ensures_get.mpr ?_)
  cases c.conflicts.lookup conflict with
  | none => exact ensures_throw.mpr trivial
  | some => exact ensures_assertAccess_sealed h

/-- The guard checks the new row, and then the access. -/
theorem recordGuard_client (b : Binding) (old : Option Record) (new : Record) :
    ∃ rest : Unit → Sql Record, recordGuard b .client old new =
      (raiseIf (isObject new.key = false ∨ new.key = .obj [] ∨
        (new.deleted = false ∧ new.payload.any isObject = false)) Message.invalidRequest.raised
          >>= fun _ => assertAccess b true >>= rest) := by
  cases old with
  | none | some => exact ⟨_, rfl⟩

theorem denies_recordGuard {new : Record} (f : Binding → Record → Sql α) :
    Denies fun b => recordGuard b .client old new >>= f b := by
  intro b h
  obtain ⟨rest, hguard⟩ := recordGuard_client b old new
  by_cases hinvalid : isObject new.key = false ∨ new.key = .obj [] ∨
      (new.deleted = false ∧ new.payload.any isObject = false)
  · refine ⟨Message.invalidRequest.raised, fun c => ?_⟩
    dsimp only
    rw [hguard, bind_assoc, raiseIf_bind_apply, if_pos hinvalid]
  · refine ⟨Message.permissionDenied.raised, fun c => ?_⟩
    dsimp only
    rw [hguard, bind_assoc, raiseIf_bind_apply, if_neg hinvalid, bind_assoc]
    exact assertAccess_denied h true _ c

theorem ensures_recordGuard_sealed (h : b.enabled = false ∨ b.readWrite = false) {new : Record}
    {f : Record → Sql α} {c : Cache} {Q : α → Cache → Prop} :
    Ensures (recordGuard b .client old new >>= f) c Q := by
  obtain ⟨rest, hguard⟩ := recordGuard_client b old new
  rw [hguard, bind_assoc]
  refine ensures_bind.mpr (ensures_raiseIf.mpr fun _ => ?_)
  rw [bind_assoc]
  exact ensures_assertAccess_sealed h

theorem sealed_updateRecord {change : Record → Record} :
    Sealed fun b => updateRecord b draw now key change := by
  intro b c h
  refine ensures_bind.mpr (ensures_get.mpr ?_)
  cases c.records.lookup key with
  | none => exact ensures_pure.mpr rfl
  | some => exact ensures_recordGuard_sealed h

theorem denies_rowStatement (hrow : row.isUpdate = false) : Denies fun b => row.run b draw now := by
  cases row with
  | update => cases hrow
  | insert key _ _ otherwise =>
    cases otherwise with
    | raise =>
      intro b h
      obtain ⟨e, he⟩ := denies_recordGuard (fun b new => do
        let c ← get
        raiseIf ((c.records.lookup new.key).isSome = true) Message.uniqueViolation.raised
        modify (Cache.setRecord new)
        enqueueRecord draw now none new
        return new) b h
      refine ⟨e, fun c => ?_⟩
      exact congrArg (fun result => (fun next => (some next.1, next.2)) <$> result) (he c)
    | nothing | update => exact denies_recordGuard _

theorem sealed_rowStatement : Sealed fun b => row.run b draw now := by
  cases row with
  | update => exact sealed_updateRecord
  | insert _ _ _ otherwise =>
    intro b c h
    cases otherwise with
    | raise =>
      refine ensures_map.mpr ?_
      exact ensures_recordGuard_sealed h
    | nothing | update => exact ensures_recordGuard_sealed h

end Cache

section Source

/-- The rows of a source that only writers change. -/
def Source.Same (source source' : Source) : Prop :=
  source'.records = source.records ∧ source'.changes = source.changes

/-- A binding that is disabled or read-only keeps its records and changes. -/
def Shielded (f : Binding → SourceSql α) : Prop :=
  ∀ b source, b.enabled = false ∨ b.readWrite = false →
    Ensures (f b) source fun _ source' => Source.Same source source'

theorem shielded_capabilities : Shielded sourceCapabilities := by
  intro b source _
  exact ensures_bind.mpr (ensures_assertAccess (ensures_pure.mpr ⟨rfl, rfl⟩))

theorem shielded_mutate {draw : Uuid} {request : Request} :
    Shielded fun b => sourceMutate b draw request := by
  intro b source h
  exact ensures_assertAccess_sealed h

theorem shielded_operation {operation : Option Uuid} :
    Shielded fun b => sourceOperationText b operation := by
  intro b source _
  cases operation with
  | none => exact ensures_bind.mpr (ensures_assertAccess (ensures_throw.mpr trivial))
  | some =>
    refine ensures_bind.mpr (ensures_assertAccess ?_)
    exact ensures_bind.mpr (ensures_get.mpr (ensures_pure.mpr ⟨rfl, rfl⟩))

variable {cursor : Option Cursor}

theorem shielded_changes {limit : Nat} : Shielded fun b => sourceChanges b cursor limit := by
  intro b source _
  refine ensures_bind.mpr (ensures_assertAccess ?_)
  refine ensures_bind.mpr (ensures_raiseIf.mpr fun _ => ?_)
  refine ensures_bind.mpr (ensures_cursorCounter fun after => ?_)
  refine ensures_bind.mpr (ensures_get.mpr ?_)
  refine ensures_bind.mpr (ensures_raiseIf.mpr fun _ => ?_)
  refine ensures_bind.mpr (ensures_raiseIf.mpr fun _ => ?_)
  exact ensures_pure.mpr ⟨rfl, rfl⟩

/-- A snapshot may be taken of a binding that is read-only: it is a row of its own. -/
theorem shielded_snapshot {draw : Uuid} {now : Int} {limit : Nat} :
    Shielded fun b => sourceSnapshot b draw now cursor limit := by
  intro b source _
  refine ensures_bind.mpr (ensures_assertAccess ?_)
  refine ensures_bind.mpr (ensures_raiseIf.mpr fun _ => ?_)
  match cursor with
  | none =>
    refine ensures_bind.mpr (ensures_get.mpr ?_)
    refine ensures_bind.mpr (ensures_raiseIf.mpr fun _ => ?_)
    exact ensures_bind.mpr (ensures_modify.mpr (ensures_pure.mpr ⟨rfl, rfl⟩))
  | some (.snap id offset) =>
    refine ensures_bind.mpr (ensures_get.mpr ?_)
    cases (source.snapshots.lookup id).filter fun snapshot => now < snapshot.expiresAt with
    | none => exact ensures_throw.mpr trivial
    | some =>
      refine ensures_bind.mpr (ensures_raiseIf.mpr fun _ => ?_)
      exact ensures_pure.mpr ⟨rfl, rfl⟩
  | some (.sync _ _) => exact ensures_throw.mpr trivial
  | some (.other _) => exact ensures_throw.mpr trivial

end Source

/-! ## Rows that stay -/

/-- The binding is the user's and may be written. -/
def Store.writable (s : Store) (user : String) (id : Uuid) : Bool :=
  (s.bindings.lookup id).any fun b => b.admits user && b.binding.readWrite

/-- The rows that only a user of the binding may change, and only if it is not
read-only. -/
structure Store.SameGuarded (s t : Store) (id : Uuid) : Prop where
  records : (t.cache id).records = (s.cache id).records
  outbox : (t.cache id).outbox = (s.cache id).outbox
  conflicts : (t.cache id).conflicts = (s.cache id).conflicts
  source : Source.Same (s.source id) (t.source id)

theorem Store.SameGuarded.refl : s.SameGuarded s id := ⟨rfl, rfl, rfl, rfl, rfl⟩

/-- What a call of the user leaves as it was. -/
structure KeptFor (user : String) (s t : Store) : Prop where
  bindings : t.bindings = s.bindings
  guarded : ∀ id, s.writable user id = false → s.SameGuarded t id

theorem KeptFor.refl : KeptFor user s s := ⟨rfl, fun _ _ => .refl⟩

theorem KeptFor.trans {t u : Store} (h : KeptFor user s t) (h' : KeptFor user t u) :
    KeptFor user s u := by
  refine ⟨h'.bindings.trans h.bindings, fun id hid => ?_⟩
  have hid' : t.writable user id = false := by
    unfold Store.writable
    rw [h.bindings]
    exact hid
  obtain ⟨hrecords, houtbox, hconflicts, hsource, hchanges⟩ := h.guarded id hid
  obtain ⟨hrecords', houtbox', hconflicts', hsource', hchanges'⟩ := h'.guarded id hid'
  exact ⟨hrecords'.trans hrecords, houtbox'.trans houtbox, hconflicts'.trans hconflicts,
    hsource'.trans hsource, hchanges'.trans hchanges⟩

/-- What a user may not write is disabled or read-only to it. -/
theorem bindingFor_of_not_writable (h : s.writable user id = false) :
    (s.bindingFor user id).enabled = false ∨ (s.bindingFor user id).readWrite = false := by
  unfold Store.writable at h
  unfold Store.bindingFor
  cases hfound : (s.bindings.lookup id).filter (·.admits user) with
  | none => exact .inl rfl
  | some =>
    obtain ⟨hlookup, hadmits⟩ := Option.filter_eq_some_iff.mp hfound
    rw [hlookup, Option.any_some, hadmits] at h
    exact .inr h

variable {f : Binding → Sql α} {Q : α → Store → Prop} {rows : List (Uuid × RowStatement × Uuid)}
  {now : Int} {x y : Tx Store Raised β}

theorem ensures_onCache (h : Ensures (f (s.bindingFor user id)) (s.cache id) fun a c =>
      Q a { s with cache := Function.update s.cache id c }) :
    Ensures (Store.onCache user id f) s Q := by
  intro a t hrun
  simp only [Store.onCache, StateT.run] at hrun
  cases hf : f (s.bindingFor user id) (s.cache id) with rw [hf] at hrun
  | error => cases hrun
  | ok =>
    cases hrun
    exact h _ _ hf

theorem ensures_onSource {f : Binding → SourceSql α}
    (h : Ensures (f (s.bindingFor user id)) (s.source id) fun a source =>
      Q a { s with source := Function.update s.source id source }) :
    Ensures (Store.onSource user id f) s Q := by
  intro a t hrun
  simp only [Store.onSource, StateT.run] at hrun
  cases hf : f (s.bindingFor user id) (s.source id) with rw [hf] at hrun
  | error => cases hrun
  | ok =>
    cases hrun
    exact h _ _ hf

theorem kept_onCache (hf : Sealed f) :
    Ensures (Store.onCache user id f) s fun _ t => KeptFor user s t := by
  refine ensures_onCache fun a c hrun => ⟨rfl, fun id' hid' => ?_⟩
  by_cases h : id' = id
  · subst h
    have hsame := hf _ _ (bindingFor_of_not_writable hid') a c hrun
    subst hsame
    rw [Function.update_eq_self]
    exact .refl
  · refine ⟨?_, ?_, ?_, rfl, rfl⟩
    · exact congrArg Cache.records (Function.update_of_ne h _ _)
    · exact congrArg Cache.outbox (Function.update_of_ne h _ _)
    · exact congrArg Cache.conflicts (Function.update_of_ne h _ _)

theorem kept_onSource {f : Binding → SourceSql α} (hf : Shielded f) :
    Ensures (Store.onSource user id f) s fun _ t => KeptFor user s t := by
  refine ensures_onSource fun a source hrun => ⟨rfl, fun id' hid' => ⟨rfl, rfl, rfl, ?_⟩⟩
  by_cases h : id' = id
  · subst h
    obtain ⟨hrecords, hchanges⟩ := hf _ _ (bindingFor_of_not_writable hid') a source hrun
    constructor
    · exact (congrArg Source.records (Function.update_self _ _ _)).trans hrecords
    · exact (congrArg Source.changes (Function.update_self _ _ _)).trans hchanges
  · constructor
    · exact congrArg Source.records (Function.update_of_ne h _ _)
    · exact congrArg Source.changes (Function.update_of_ne h _ _)

theorem kept_writeStatement :
    Ensures (writeStatement user now rows) s fun _ t => KeptFor user s t := by
  induction rows generalizing s with
  | nil => exact ensures_pure.mpr .refl
  | cons _ _ ih =>
    refine ensures_bind.mpr (ensures_get.mpr ?_)
    split
    case isTrue => exact ih
    case isFalse =>
      refine ensures_bind.mpr ((kept_onCache sealed_rowStatement).mono fun _ t ht => ?_)
      refine ensures_bind.mpr (ih.mono fun _ u hu => ensures_pure.mpr ?_)
      exact ht.trans hu

/-- No call changes a guarded row of a binding that the user may not write. -/
theorem UserCall.keeps (call : UserCall) : KeptFor user s ((call.tx user).commit s).1 := by
  refine Ensures.commit (R := KeptFor user) ?_ .refl
  cases call with
  | canAccess | select => exact ensures_bind.mpr (ensures_get.mpr (ensures_pure.mpr .refl))
  | assertAccess =>
    refine ensures_map.mpr (kept_onCache fun b c _ => ?_)
    exact ensures_assertAccess rfl
  | put | remove => exact ensures_map.mpr (kept_onCache fun b c h => ensures_assertAccess_sealed h)
  | resolve _ _ conflict =>
    refine ensures_bind.mpr (ensures_get.mpr ?_)
    cases s.conflictBinding conflict with
    | none => exact ensures_throw.mpr trivial
    | some => exact ensures_map.mpr (kept_onCache sealed_resolve)
  | capabilities => exact ensures_map.mpr (kept_onSource shielded_capabilities)
  | mutate => exact ensures_map.mpr (kept_onSource shielded_mutate)
  | operation => exact ensures_map.mpr (kept_onSource shielded_operation)
  | changes => exact ensures_map.mpr (kept_onSource shielded_changes)
  | snapshot => exact ensures_map.mpr (kept_onSource shielded_snapshot)
  | statement => exact ensures_map.mpr kept_writeStatement

/-! ## Two stores -/

/-- The stores differ only in the rows of bindings that are disabled or of another
role. -/
structure Store.AgreesFor (user : String) (s s' : Store) : Prop where
  visible : s.visible user = s'.visible user
  cache : ∀ b ∈ s.visible user, s.cache b.id = s'.cache b.id
  source : ∀ b ∈ s.visible user, s.source b.id = s'.source b.id
  conflicts : ∀ b ∈ s.visible user, ∀ conflict,
    s.conflictBinding conflict = some b.id ↔ s'.conflictBinding conflict = some b.id

/-- The binding of an id, if the policies let it through. -/
theorem find_visible : (s.visible user).find? (fun b => b.id = id) =
    (s.bindings.lookup id).filter (·.admits user) := by
  rw [← Keyed.lookup_filterRows]
  rfl

theorem Store.AgreesFor.bindingFor (h : s.AgreesFor user s') (id : Uuid) :
    s.bindingFor user id = s'.bindingFor user id := by
  unfold Store.bindingFor
  rw [← find_visible, ← find_visible, h.visible]

theorem canAccess_eq : s.canAccess user id =
    ((s.visible user).find? fun b => b.id = id).isSome := by
  rw [find_visible]
  unfold Store.canAccess
  cases s.bindings.lookup id with
  | none => rfl
  | some b =>
    rw [Option.any_some, Option.filter_some]
    cases b.admits user with
    | true => rfl
    | false => rfl

theorem Store.AgreesFor.canAccess (h : s.AgreesFor user s') (id : Uuid) :
    s.canAccess user id = s'.canAccess user id := by
  rw [canAccess_eq, canAccess_eq, h.visible]

theorem exists_visible (h : s.canAccess user id = true) : ∃ b ∈ s.visible user, b.id = id := by
  rw [canAccess_eq] at h
  obtain ⟨b, hb⟩ := Option.isSome_iff_exists.mp h
  exact ⟨b, List.mem_of_find?_eq_some hb,
    of_decide_eq_true (List.find?_some (p := fun b : AppBinding => b.id = id) hb)⟩

theorem bindingFor_denied (h : s.canAccess user id = false) :
    s.bindingFor user id = deniedBinding id := by
  rw [canAccess_eq, find_visible] at h
  unfold Store.bindingFor
  rw [Option.isSome_eq_false_iff, Option.isNone_iff_eq_none] at h
  rw [h]

theorem Store.AgreesFor.view (h : s.AgreesFor user s') : s.view user = s'.view user := by
  unfold Store.view
  rw [← h.visible]
  refine List.map_congr_left fun b hb => ?_
  rw [h.cache b hb]

theorem Store.AgreesFor.updateCache (h : s.AgreesFor user s') (c : Cache) :
    ({ s with cache := Function.update s.cache id c } : Store).AgreesFor user
      { s' with cache := Function.update s'.cache id c } := by
  refine ⟨h.visible, fun b hb => ?_, h.source, h.conflicts⟩
  change Function.update s.cache id c b.id = Function.update s'.cache id c b.id
  by_cases hid : b.id = id
  · subst hid
    rw [Function.update_self, Function.update_self]
  · rw [Function.update_of_ne hid, Function.update_of_ne hid]
    exact h.cache b hb

theorem Store.AgreesFor.updateSource (h : s.AgreesFor user s') (source : Source) :
    ({ s with source := Function.update s.source id source } : Store).AgreesFor user
      { s' with source := Function.update s'.source id source } := by
  refine ⟨h.visible, h.cache, fun b hb => ?_, h.conflicts⟩
  change Function.update s.source id source b.id = Function.update s'.source id source b.id
  by_cases hid : b.id = id
  · subst hid
    rw [Function.update_self, Function.update_self]
  · rw [Function.update_of_ne hid, Function.update_of_ne hid]
    exact h.source b hb

/-- The same answer, and stores that agree. -/
def SameResult (user : String) : Except Raised (α × Store) → Except Raised (α × Store) → Prop
  | .ok (a, t), .ok (a', t') => a = a' ∧ t.AgreesFor user t'
  | .error e, .error e' => e = e'
  | _, _ => False

theorem SameResult.bind {f g : β → Tx Store Raised α} (h : SameResult user (x s) (y s'))
    (hf : ∀ b t t', t.AgreesFor user t' → SameResult user (f b t) (g b t')) :
    SameResult user ((x >>= f) s) ((y >>= g) s') := by
  have hrun : ∀ (x : Tx Store Raised β) (f : β → Tx Store Raised α) (s : Store),
      (x >>= f) s = x s >>= fun next => f next.1 next.2 := fun _ _ _ => rfl
  rw [hrun, hrun]
  cases hx : x s with
  | error =>
    cases hy : y s' with rw [hx, hy] at h
    | error => exact h
    | ok => exact h.elim
  | ok next =>
    cases hy : y s' with rw [hx, hy] at h
    | error => exact h.elim
    | ok next' =>
      obtain ⟨heq, hstores⟩ := h
      have hsame := hf next.1 next.2 next'.2 hstores
      rw [heq] at hsame
      change SameResult user (f next.1 next.2) (g next'.1 next'.2)
      rw [heq]
      exact hsame

theorem SameResult.map {f : β → α} (h : SameResult user (x s) (y s')) :
    SameResult user ((f <$> x) s) ((f <$> y) s') := by
  rw [← bind_pure_comp, ← bind_pure_comp]
  exact h.bind fun b t t' ht => ⟨rfl, ht⟩

/-- A function on a binding that the user may use, or that is refused before it reads. -/
theorem sameResult_onCache (h : s.AgreesFor user s') (hf : s.canAccess user id = true ∨ Denies f) :
    SameResult user (Store.onCache user id f s) (Store.onCache user id f s') := by
  unfold Store.onCache
  rw [← h.bindingFor id]
  by_cases haccess : s.canAccess user id = true
  · obtain ⟨b, hb, rfl⟩ := exists_visible haccess
    rw [← h.cache b hb]
    cases f (s.bindingFor user b.id) (s.cache b.id) with
    | error => exact rfl
    | ok result => exact ⟨rfl, h.updateCache result.2⟩
  · have haccess := eq_false_of_ne_true haccess
    obtain ⟨e, he⟩ := hf.resolve_left (by rw [haccess]; exact Bool.false_ne_true)
      (deniedBinding id) rfl
    rw [bindingFor_denied haccess, he, he]
    exact rfl

theorem sameResult_onSource (h : s.AgreesFor user s') {f : Binding → SourceSql α}
    (hf : Denies f) :
    SameResult user (Store.onSource user id f s) (Store.onSource user id f s') := by
  unfold Store.onSource
  rw [← h.bindingFor id]
  by_cases haccess : s.canAccess user id = true
  · obtain ⟨b, hb, rfl⟩ := exists_visible haccess
    rw [← h.source b hb]
    cases f (s.bindingFor user b.id) (s.source b.id) with
    | error => exact rfl
    | ok result => exact ⟨rfl, h.updateSource result.2⟩
  · obtain ⟨e, he⟩ := hf (deniedBinding id) rfl
    rw [bindingFor_denied (eq_false_of_ne_true haccess), he, he]
    exact rfl

theorem sameResult_writeStatement (h : s.AgreesFor user s') :
    SameResult user (writeStatement user now rows s) (writeStatement user now rows s') := by
  induction rows generalizing s s' with
  | nil => exact ⟨rfl, h⟩
  | cons row _ ih =>
    obtain ⟨id, row, draw⟩ := row
    unfold writeStatement
    rw [get_bind_apply, get_bind_apply, ← h.canAccess id]
    split
    case isTrue => exact ih h
    case isFalse hrow =>
      refine SameResult.bind (sameResult_onCache h ?_) fun written t t' ht => ?_
      · -- an insert is refused, and an update is of a binding that is let through
        cases haccess : s.canAccess user id with
        | true => exact .inl rfl
        | false =>
          refine .inr (denies_rowStatement (eq_false_of_ne_true fun hupdate => ?_))
          exact hrow ⟨hupdate, haccess⟩
      · exact (ih ht).bind fun others u u' hu => ⟨rfl, hu⟩

/-- What `resolve` does about a conflict of a binding that is not let through. -/
theorem resolve_denied {draw : Uuid} {conflict : Uuid} {strategy : Option Strategy}
    {expected : Option Int} (h : ∀ id, s.conflictBinding conflict = some id →
      s.canAccess user id = false) :
    (UserCall.resolve draw now conflict strategy expected).tx user s =
      .error Message.permissionDenied.raised := by
  refine (get_bind_apply _).trans ?_
  cases hfound : s.conflictBinding conflict with
  | none => rfl
  | some id =>
    have hdenied : Store.onCache user id
        (fun b => Sync.resolve b draw now conflict strategy expected) s =
          .error Message.permissionDenied.raised := by
      unfold Store.onCache
      dsimp only
      have hdisabled : (s.bindingFor user id).enabled = false := by
        rw [bindingFor_denied (h id hfound)]
        rfl
      rw [resolve_disabled hdisabled]
    change (Store.onCache user id _ s >>= fun next => pure (UserReply.resolved next.1, next.2)) = _
    rw [hdenied]
    rfl

/-- Every call answers the same on stores that agree, and leaves stores that agree. -/
theorem UserCall.agrees (call : UserCall) (h : s.AgreesFor user s') :
    SameResult user (call.tx user s) (call.tx user s') := by
  cases call with
  | canAccess id => exact ⟨congrArg UserReply.allowed (h.canAccess id), h⟩
  | assertAccess _ write =>
    refine (sameResult_onCache h (.inr ?_)).map
    intro b hb
    refine ⟨Message.permissionDenied.raised, fun c => ?_⟩
    have hdenied := assertAccess_denied hb write pure c
    rwa [bind_pure] at hdenied
  | put | remove => exact (sameResult_onCache h (.inr (denies_assertAccess true _))).map
  | resolve draw now conflict strategy expected =>
    by_cases hfound : ∃ b ∈ s.visible user, s.conflictBinding conflict = some b.id
    · obtain ⟨b, hb, hconflict⟩ := hfound
      have hconflict' := (h.conflicts b hb conflict).mp hconflict
      have htx : ∀ {t : Store}, t.conflictBinding conflict = some b.id →
          (UserCall.resolve draw now conflict strategy expected).tx user t =
            (UserReply.resolved <$> Store.onCache user b.id fun b =>
              Sync.resolve b draw now conflict strategy expected) t := by
        intro t ht
        refine (get_bind_apply _).trans ?_
        rw [ht]
      rw [htx hconflict, htx hconflict']
      exact (sameResult_onCache h (.inr denies_resolve)).map
    · -- neither store has it in a binding that is let through
      have hdenied : ∀ id, s.conflictBinding conflict = some id →
          s.canAccess user id = false := by
        intro id hid
        refine eq_false_of_ne_true fun haccess => hfound ?_
        obtain ⟨b, hb, rfl⟩ := exists_visible haccess
        exact ⟨b, hb, hid⟩
      have hdenied' : ∀ id, s'.conflictBinding conflict = some id →
          s'.canAccess user id = false := by
        intro id hid
        refine eq_false_of_ne_true fun haccess => hfound ?_
        obtain ⟨b, hb, rfl⟩ := exists_visible haccess
        rw [← h.visible] at hb
        exact ⟨b, hb, (h.conflicts b hb conflict).mpr hid⟩
      rw [resolve_denied hdenied, resolve_denied hdenied']
      exact rfl
  | capabilities | changes => exact (sameResult_onSource h (denies_assertAccess false _)).map
  | mutate => exact (sameResult_onSource h (denies_assertAccess true _)).map
  | operation _ text =>
    cases text with
    | none | some => exact (sameResult_onSource h (denies_assertAccess false _)).map
  | snapshot => exact (sameResult_onSource h (denies_assertAccess false _)).map
  | select => exact ⟨congrArg UserReply.rows h.view, h⟩
  | statement now rows =>
    have htx : ∀ t : Store, (UserCall.statement now rows).tx user t =
        (UserReply.returning <$> writeStatement user now (rows (t.view user))) t :=
      fun t => get_bind_apply _
    rw [htx, h.view]
    exact (sameResult_writeStatement h).map

theorem SameResult.commit {tx : Tx Store Raised α} (h : SameResult user (tx s) (tx s'))
    (hstores : s.AgreesFor user s') :
    (tx.commit s).2 = (tx.commit s').2 ∧ (tx.commit s).1.AgreesFor user (tx.commit s').1 := by
  unfold Tx.commit StateT.run
  cases hs : tx s with
  | error =>
    cases hs' : tx s' with rw [hs, hs'] at h
    | error => exact ⟨congrArg Except.error h, hstores⟩
    | ok => exact h.elim
  | ok =>
    cases hs' : tx s' with rw [hs, hs'] at h
    | error => exact h.elim
    | ok => exact ⟨congrArg Except.ok h.1, h.2⟩

/-! ## Sessions -/

theorem session_keeps (calls : List UserCall) : KeptFor user s (session user s calls).1 := by
  induction calls generalizing s with
  | nil => exact .refl
  | cons call _ ih => exact call.keeps.trans ih

theorem session_agrees (calls : List UserCall) (h : s.AgreesFor user s') :
    (session user s calls).2 = (session user s' calls).2 := by
  induction calls generalizing s s' with
  | nil => rfl
  | cons call _ ih =>
    obtain ⟨hreply, hnext⟩ := (call.agrees h).commit h
    change _ :: _ = _ :: _
    rw [hreply, ih hnext]

/-- For every user and every sequence of its calls: no guarded row of a binding that is
disabled, read-only or of another role changes, and the answers are the same whatever
rows the bindings have that are disabled or of another role. -/
theorem isolated (user : String) (calls : List UserCall) :
    (∀ (s : Store) (id : Uuid), s.writable user id = false →
      s.SameGuarded (session user s calls).1 id) ∧
    ∀ s s' : Store, s.AgreesFor user s' →
      (session user s calls).2 = (session user s' calls).2 :=
  ⟨fun _ id hid => (session_keeps calls).guarded id hid, fun _ _ h => session_agrees calls h⟩

namespace Tenants

def own : AppBinding := { binding := { id := "own", relation := "notes" }, appRole := "app" }

def other : AppBinding := { binding := { id := "other", relation := "notes" }, appRole := "else" }

def key (name : String) : Json := .obj [("id", .str name)]

/-- Two bindings, and what the rows of the other one are. -/
def store (theirs : Cache) (conflict : Option Uuid) : Store where
  bindings := Keyed.insert (Keyed.insert ∅ own) other
  cache := fun id => if id = "other" then theirs else {}
  conflictBinding := fun _ => conflict

def theirs : Cache where
  records := Keyed.insert ∅ { key := key "1", payload := some (.obj []), localRevision := 1 }

/-- Writes of both bindings, a conflict of the other one, and all that can be seen. -/
def calls : List UserCall :=
  [.put "own" "a" 1 (key "1") (some (.obj [])) (some 0),
   .put "other" "b" 1 (key "1") (some (.obj [])) (some 1),
   .resolve "c" 2 "conflict" (some .acceptRemote) (some 1),
   .select]

theorem agreesFor : (store {} none).AgreesFor "app" (store theirs (some "other")) where
  visible := rfl
  cache := by
    intro b hb
    rw [List.mem_singleton.mp hb]
    rfl
  source := fun _ _ => rfl
  conflicts := by
    intro b hb conflict
    rw [List.mem_singleton.mp hb]
    exact ⟨nofun, fun h => absurd (Option.some.inj h) (by decide)⟩

end Tenants

open Tenants in

/-- The other binding's record is not written, and the answers do not tell whether it and
its conflict are there. -/
theorem isolated_tenants :
    (store theirs (some "other")).SameGuarded
      (session "app" (store theirs (some "other")) calls).1 "other" ∧
    (session "app" (store {} none) calls).2 =
      (session "app" (store theirs (some "other")) calls).2 :=
  ⟨(isolated "app" calls).1 _ "other" (by decide), (isolated "app" calls).2 _ _ agreesFor⟩

end NoizuMcp.Sync
