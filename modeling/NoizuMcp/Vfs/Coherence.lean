import NoizuMcp.Foundation.Service
import NoizuMcp.Vfs.Dispatcher

/-!
# Coherence of the cache

What the cache holds is coherent with the data and the generation if every entry is the
report of some request with that key (`Sound`). As long as the data and the generation
stay, reads keep it so under every interleaving, and answer accordingly
(`under_handler`); a mutation that no other call overlaps leaves it so, with the
generation one higher if it succeeds (`under_mutation`). A fill that a mutation overtakes
does neither.

The key of an entry holds the options of the mount and the path, nothing else of the
caller.
-/

set_option autoImplicit false

namespace NoizuMcp.Vfs

open Foundation (Prog Table Pool Service Action Setting)

open Foundation.Prog (Under under_pure)

variable {σ Ctx Ns : Type} [DecidableEq Ns] {m : Mount σ Ctx Ns}

/-- The calls that change the data. -/
def Request.mutates : Request Ctx → Bool
  | .stat .. | .list .. | .read .. => false
  | .write .. | .create .. | .remove .. | .move .. => true

namespace Mount

/-- The key under which the answer of a read is cached. -/
def key (m : Mount σ Ctx Ns) : Request Ctx → Option (Kind × Ns × Text)
  | .stat path ctx => some (.stat, m.ns ctx, path)
  | .list path cursor ctx => some (.list, m.ns ctx, listKey path cursor)
  | .read path ctx _ => some (.read, m.ns ctx, path)
  | _ => none

/-- `answer` is what the dispatcher without its cache tells this caller, or with success
another one with the same key. -/
def Reports (m : Mount σ Ctx Ns) (A : Request Ctx → Prop) (db : σ) (gen : Nat)
    (req : Request Ctx) (answer : Answer) : Prop :=
  m.direct db gen req = some answer ∨
    ∃ report other, answer = .ok report ∧ A other ∧ m.key other = m.key req ∧
      m.direct db gen other = some (.ok report)

end Mount

/-- What a cached value is reported as. -/
def report (gen : Nat) : (kind : Kind) → kind.Value → Report
  | .stat, node => .node (node.stamped gen)
  | .list, listing => .listing listing
  | .read, value => .content value.1 (value.2 + gen)

/-- Every entry is the report of a request that it is the key of. -/
def Sound (m : Mount σ Ctx Ns) (A : Request Ctx → Prop) (db : σ) (gen : Nat)
    (entries : Entries Ns) : Prop :=
  ∀ kind ns key deadline value, (entries kind).lookup (ns, key) = some (deadline, value) →
    ∃ req, A req ∧ m.key req = some (kind, ns, key) ∧
      m.direct db gen req = some (.ok (report gen kind value))

section Sound

variable {A : Request Ctx → Prop} {db : σ} {gen : Nat} {entries : Entries Ns} {kind : Kind}
  {ns : Ns} {key : Text}

theorem sound_empty : Sound m A db gen fun _ => ∅ := by
  intro kind ns key deadline value h
  simp at h

theorem Sound.drop (h : Sound m A db gen entries) : Sound m A db gen (entries.drop kind ns key) := by
  intro kind' ns' key' deadline value hlookup
  by_cases hkind : kind' = kind
  · subst hkind
    simp only [Entries.drop, Function.update_self, Table.lookup_erase_ite] at hlookup
    split at hlookup
    · cases hlookup
    · exact h kind' ns' key' deadline value hlookup
  · simp only [Entries.drop, Function.update_of_ne hkind] at hlookup
    exact h kind' ns' key' deadline value hlookup

theorem Sound.store {deadline : Int} {value : kind.Value} (h : Sound m A db gen entries)
    {req : Request Ctx} (hA : A req) (hkey : m.key req = some (kind, ns, key))
    (hdirect : m.direct db gen req = some (.ok (report gen kind value))) :
    Sound m A db gen (entries.store kind ns key deadline value) := by
  intro kind' ns' key' deadline' value' hlookup
  by_cases hkind : kind' = kind
  · subst hkind
    simp only [Entries.store, Function.update_self, Table.lookup_insert_ite] at hlookup
    split at hlookup
    · rename_i heq
      cases heq
      cases hlookup
      exact ⟨req, hA, hkey, hdirect⟩
    · exact h kind' ns' key' deadline' value' hlookup
  · simp only [Entries.store, Function.update_of_ne hkind] at hlookup
    exact h kind' ns' key' deadline' value' hlookup

end Sound

/-! ## Reads while the data and the generation stay -/

/-- The data and the generation are these, and the cache is coherent with them. -/
structure Steady (m : Mount σ Ctx Ns) (A : Request Ctx → Prop) (db : σ) (gen : Nat)
    (w : World σ Ns) : Prop where
  db_eq : w.db = db
  gen_eq : w.term.gen = gen
  sound : Sound m A db gen w.term.entries

/-- Everyone keeps the world steady; `ok` says which answers the backend gives. -/
def steady (m : Mount σ Ctx Ns) (A : Request Ctx → Prop) (ok : (op : Op Ctx Ns) → op.Res → Prop)
    (db : σ) (gen : Nat) : Setting (World σ Ns) (Op Ctx Ns) Op.Res where
  exec w op r w' := m.exec op w = (r, w') ∧ ok op r
  rely _ w := Steady m A db gen w
  guar _ _ _ w := Steady m A db gen w

section Reads

variable {A : Request Ctx → Prop} {ok : (op : Op Ctx Ns) → op.Res → Prop} {db : σ} {gen : Nat} {w : World σ Ns}

/-- An operation that leaves the world alone. -/
theorem under_look {op : Op Ctx Ns} {Q : op.Res → Prop} (hkeep : ∀ w : World σ Ns, (m.exec op w).2 = w)
    (h : ∀ w, Steady m A db gen w → Q (m.exec op w).1) :
    Under (steady m A ok db gen) (fun r _ => Q r) (Prog.perform op) w := by
  intro w₁ hw₁ r w₂ hexec
  obtain ⟨rfl, rfl⟩ := Prod.ext_iff.mp hexec.1.symm
  rw [hkeep]
  exact ⟨hw₁, h w₁ hw₁⟩

theorem under_term : Under (steady m A ok db gen)
    (fun t _ => t.gen = gen ∧ Sound m A db gen t.entries) term w :=
  under_look (fun _ => rfl) fun _ hw => ⟨hw.gen_eq, hw.sound⟩

theorem under_now : Under (steady m A ok db gen) (fun _ _ => True) now w :=
  under_look (fun _ => rfl) fun _ _ => trivial

theorem under_setTerm {t : Term Ns} (hgen : t.gen = gen) (hsound : Sound m A db gen t.entries) :
    Under (steady m A ok db gen) (fun _ _ => True) (setTerm t) w := by
  intro w₁ hw₁ r w₂ hexec
  cases hexec.1
  exact ⟨⟨hw₁.db_eq, hgen, hsound⟩, trivial⟩

theorem under_generation : Under (steady m A ok db gen) (fun g _ => g = gen) generation w :=
  under_term.bind fun _ _ ht => ht.1

theorem under_entries :
    Under (steady m A ok db gen) (fun found _ => Sound m A db gen found) entries w :=
  under_term.bind fun _ _ ht => ht.2

variable {enabled : Bool} {expected : Option Int}

/-- A hit is an entry that some request with the key reports. -/
theorem under_cacheGet {kind : Kind} {ns : Ns} {key : Text} :
    Under (steady m A ok db gen)
      (fun hit _ => ∀ value, hit = some value → ∃ req, A req ∧ m.key req = some (kind, ns, key) ∧
        m.direct db gen req = some (.ok (report gen kind value)))
      (cacheGet enabled kind ns key expected) w := by
  have hmiss : ∀ w', Under (steady m A ok db gen)
      (fun hit _ => ∀ value, hit = some value → ∃ req, A req ∧ m.key req = some (kind, ns, key) ∧
        m.direct db gen req = some (.ok (report gen kind value)))
      (pure none : Call Ctx Ns (Option kind.Value)) w' := fun _ _ h => by cases h
  rw [cacheGet]
  split
  · refine under_now.bind fun time _ _ => under_entries.bind fun found w' hfound => ?_
    split
    · exact hmiss w'
    · rename_i deadline value hlookup
      have hvalue := hfound kind ns key deadline value hlookup
      split
      · -- the entry holds, but the caller may have seen another version
        split
        · intro _ h
          cases h
          exact hvalue
        · intro _ h
          split at h
          · cases h
            exact hvalue
          · cases h
      · refine under_generation.bind fun g _ hg => under_entries.bind fun found' _ hfound' => ?_
        exact (under_setTerm hg hfound'.drop).bind fun _ _ _ => hmiss _
  · exact hmiss w

variable {req : Request Ctx}

theorem under_cachePut {ttl : Int} {kind : Kind} {ns : Ns} {key : Text} {value : kind.Value}
    (hA : A req) (hkey : m.key req = some (kind, ns, key))
    (hdirect : m.direct db gen req = some (.ok (report gen kind value))) :
    Under (steady m A ok db gen) (fun _ _ => True) (cachePut enabled ttl kind ns key value) w := by
  rw [cachePut]
  split
  · refine under_term.bind fun t _ ht => under_now.bind fun time _ _ => ?_
    exact under_setTerm ht.1 (ht.2.store hA hkey hdirect)
  · trivial

theorem under_stamp {node : Node} :
    Under (steady m A ok db gen) (fun n _ => n = node.stamped gen) (stamp node) w :=
  under_generation.bind fun _ _ hg => by rw [under_pure, hg]

theorem under_stampEntry {entry : Entry} :
    Under (steady m A ok db gen) (fun e _ => e = entry.stamped gen) (stampEntry entry) w := by
  rw [stampEntry]
  split
  · rename_i hversion
    rw [under_pure, Entry.stamped, hversion, Option.map_none, ← hversion]
  · refine under_generation.bind fun _ _ hg => ?_
    rw [under_pure, hg]

theorem under_stampEntries {entries : List Entry} :
    Under (steady m A ok db gen) (fun es _ => es = entries.map (·.stamped gen))
      (stampEntries entries) w := by
  induction entries generalizing w with
  | nil => exact under_pure.mpr rfl
  | cons _ _ ih =>
    refine under_stampEntry.bind fun _ _ hentry => ih.bind fun _ _ hrest => ?_
    rw [under_pure, hentry, hrest, List.map_cons]

variable {path : Path} {ctx : Ctx}

theorem under_ask_stat :
    Under (steady m A ok db gen) (fun r _ => r = m.backend.stat db path ctx)
      (ask (.stat path ctx)) w :=
  under_look (fun _ => rfl) fun w hw => by
    change m.backend.stat w.db path ctx = _
    rw [hw.db_eq]

variable {cursor : Option Text}

theorem under_ask_list :
    Under (steady m A ok db gen) (fun r _ => r = m.backend.list db path cursor ctx)
      (ask (.list path cursor ctx)) w :=
  under_look (fun _ => rfl) fun w hw => by
    change m.backend.list w.db path cursor ctx = _
    rw [hw.db_eq]

theorem under_ask_read :
    Under (steady m A ok db gen) (fun r _ => r = m.backend.read db path ctx)
      (ask (.read path ctx)) w :=
  under_look (fun _ => rfl) fun w hw => by
    change m.backend.read w.db path ctx = _
    rw [hw.db_eq]

theorem under_fillStat {node : Node} (hA : A (.stat path ctx))
    (hraw : m.rawStat db path ctx = .ok node) :
    Under (steady m A ok db gen) (fun a _ => m.Reports A db gen (.stat path ctx) a)
      (m.fillStat path ctx node) w := by
  have hdirect : m.direct db gen (.stat path ctx) = some (.ok (.node (node.stamped gen))) := by
    rw [Mount.direct, hraw]
    rfl
  refine (under_cachePut hA rfl hdirect).bind fun _ _ _ => under_stamp.bind fun _ _ hnode => ?_
  rw [hnode]
  exact .inl hdirect

theorem under_stat (hA : A (.stat path ctx)) :
    Under (steady m A ok db gen) (fun a _ => m.Reports A db gen (.stat path ctx) a)
      (m.stat path ctx) w := by
  refine under_cacheGet.bind fun hit _ hhit => ?_
  split
  · refine under_ask_stat.bind fun r _ hr => ?_
    split
    · rename_i node
      exact under_fillStat hA (by rw [Mount.rawStat, ← hr])
    · split
      · rename_i hpath
        exact under_fillStat hA (by rw [Mount.rawStat, ← hr]; exact if_pos hpath)
      · rename_i hpath
        refine .inl ?_
        rw [Mount.direct, Mount.rawStat, ← hr]
        exact congrArg (fun r => some (Except.map _ r)) (if_neg hpath)
    · rename_i failure hfailure
      refine .inl ?_
      rw [Mount.direct, Mount.rawStat, ← hr]
      split
      · rename_i heq
        cases heq
      · rename_i heq
        cases heq
        exact absurd rfl hfailure
      · rename_i heq
        cases heq
        rfl
  · rename_i node
    obtain ⟨other, hother, hkey, hdirect⟩ := hhit node rfl
    refine under_stamp.bind fun _ _ hnode => ?_
    rw [hnode]
    exact .inr ⟨_, other, rfl, hother, hkey, hdirect⟩

theorem under_list (hA : A (.list path cursor ctx)) :
    Under (steady m A ok db gen) (fun a _ => m.Reports A db gen (.list path cursor ctx) a)
      (m.list path cursor ctx) w := by
  refine under_cacheGet.bind fun hit _ hhit => ?_
  split
  · refine under_ask_list.bind fun r _ hr => ?_
    split
    · rename_i entries next
      refine under_stampEntries.bind fun stamped _ hstamped => ?_
      have hdirect : m.direct db gen (.list path cursor ctx) =
          some (.ok (.listing (firstRootPage path cursor (m.readme ctx) stamped, next))) := by
        rw [Mount.direct, Mount.rawList, ← hr, hstamped]
        rfl
      exact (under_cachePut hA rfl hdirect).bind fun _ _ _ => .inl hdirect
    · refine .inl ?_
      rw [Mount.direct, Mount.rawList, ← hr]
      rfl
  · rename_i listing
    obtain ⟨other, hother, hkey, hdirect⟩ := hhit listing rfl
    exact .inr ⟨_, other, rfl, hother, hkey, hdirect⟩

theorem under_fillRead {content : Text} {version : Int} (hA : A (.read path ctx expected))
    (hraw : m.rawRead db path ctx = .ok (content, version)) :
    Under (steady m A ok db gen) (fun a _ => m.Reports A db gen (.read path ctx expected) a)
      (m.fillRead path ctx content version) w := by
  have hdirect : m.direct db gen (.read path ctx expected) =
      some (.ok (.content content (version + gen))) := by
    rw [Mount.direct, hraw]
    rfl
  refine (under_cachePut hA rfl hdirect).bind fun _ _ _ => under_generation.bind fun _ _ hg => ?_
  rw [hg]
  exact .inl hdirect

theorem under_read (hA : A (.read path ctx expected)) :
    Under (steady m A ok db gen) (fun a _ => m.Reports A db gen (.read path ctx expected) a)
      (m.read path ctx expected) w := by
  have hunstamp : ∀ w, Under (steady m A ok db gen) (fun _ _ => True)
      (Mount.unstamp expected : Call Ctx Ns (Option Int)) w := by
    intro w
    cases expected with
    | none => trivial
    | some => exact under_generation.bind fun _ _ _ => trivial
  refine (hunstamp w).bind fun expected' _ _ => under_cacheGet.bind fun hit _ hhit => ?_
  split
  · refine under_ask_read.bind fun r _ hr => ?_
    split
    · exact under_fillRead hA (by rw [Mount.rawRead, ← hr])
    · split
      · rename_i hpath
        exact under_fillRead hA (by rw [Mount.rawRead, ← hr]; exact if_pos hpath)
      · rename_i hpath
        refine .inl ?_
        rw [Mount.direct, Mount.rawRead, ← hr]
        exact congrArg (fun r => some (Except.map _ r)) (if_neg hpath)
  · rename_i content version
    obtain ⟨other, hother, hkey, hdirect⟩ := hhit (content, version) rfl
    refine under_generation.bind fun _ _ hg => ?_
    rw [hg]
    exact .inr ⟨_, other, rfl, hother, hkey, hdirect⟩

/-- Every read in a steady world reports what the data say under its key, and keeps the
world steady. -/
theorem under_handler (hA : A req) (hread : req.mutates = false) :
    Under (steady m A ok db gen) (fun a _ => m.Reports A db gen req a) (m.handler req) w := by
  cases req with
  | stat => exact under_stat hA
  | list => exact under_list hA
  | read => exact under_read hA
  | write | create | remove | move => cases hread

end Reads

/-! ## Mutations -/

/-- Nobody else changes the data or the term. -/
def alone (m : Mount σ Ctx Ns) : Setting (World σ Ns) (Op Ctx Ns) Op.Res where
  exec w op r w' := m.exec op w = (r, w')
  rely w w' := w'.db = w.db ∧ w'.term = w.term
  guar w _ _ w' := w.term.gen ≤ w'.term.gen

/-- After a success the next generation starts, with no entries; a failure has changed
nothing. -/
def Settled (db : σ) (t : Term Ns) : Answer → World σ Ns → Prop
  | .ok _, w => w.term = { gen := t.gen + 1 }
  | .error _, w => w.db = db ∧ w.term = t

section Alone

variable {db : σ} {t : Term Ns} {w : World σ Ns}

omit [DecidableEq Ns] in

theorem under_alone_bump {β : Type} {Q : β → World σ Ns → Prop} {f : Nat → Call Ctx Ns β}
    (ht : w.term = t)
    (h : ∀ w' : World σ Ns, w'.term = { gen := t.gen + 1 } → Under (alone m) Q (f (t.gen + 1)) w') :
    Under (alone m) Q (bumpGeneration >>= f) w := by
  intro w₁ hw₁ r w₂ hexec
  cases hexec
  refine ⟨Nat.le_refl _, fun w₃ hw₃ _ w₄ hexec => ?_⟩
  cases hexec
  have hterm : w₁.term = t := hw₁.2.trans ht
  constructor
  · change w₃.term.gen ≤ w₁.term.gen + 1
    rw [hw₃.2]
    exact Nat.le_succ _
  · simp only [hterm]
    exact h _ rfl

omit [DecidableEq Ns] in

theorem under_alone_mutated {answer : Except Failure Node} (ht : w.term = t)
    (hdb : ∀ failure, answer = .error failure → w.db = db) :
    Under (alone m) (Settled db t) (Mount.mutated answer) w := by
  cases answer with
  | error failure => exact ⟨hdb failure rfl, ht⟩
  | ok =>
    refine under_alone_bump ht fun w' hw' => ?_
    intro w₁ hw₁ r w₂ hexec
    cases hexec
    exact ⟨Nat.le_refl _, hw₁.2.trans hw'⟩

omit [DecidableEq Ns] in

/-- A mutation of the backend leaves the term, and the data too if it fails. -/
theorem settle_spec {x : Except Failure (Node × σ)} {r : Except Failure Node} {w' : World σ Ns}
    (h : Mount.settle w x = (r, w')) :
    w'.term = w.term ∧ ∀ failure, r = .error failure → w'.db = w.db := by
  cases x with
  | ok =>
    cases h
    exact ⟨rfl, fun _ h => by cases h⟩
  | error =>
    cases h
    exact ⟨rfl, fun _ _ => rfl⟩

omit [DecidableEq Ns] in

/-- What is left once the backend has answered by `settle`. -/
theorem under_alone_settle {x : Except Failure (Node × σ)} {r : Except Failure Node}
    {w₁ w₂ : World σ Ns} (hdb : w₁.db = db) (ht : w₁.term = t) (h : Mount.settle w₁ x = (r, w₂)) :
    w₁.term.gen ≤ w₂.term.gen ∧ Under (alone m) (Settled db t) (Mount.mutated r) w₂ := by
  obtain ⟨hterm, hkeep⟩ := settle_spec h
  refine ⟨Nat.le_of_eq (congrArg Term.gen hterm.symm), ?_⟩
  exact under_alone_mutated (hterm.trans ht) fun failure hr => (hkeep failure hr).trans hdb

omit [DecidableEq Ns] in

theorem under_alone_reserved {path : Path} {ctx : Ctx} (hdb : w.db = db) (ht : w.term = t) :
    Under (alone m) (fun _ w' => w'.db = db ∧ w'.term = t) (Mount.reserved path ctx) w := by
  rw [Mount.reserved]
  split
  · intro w₁ hw₁ r w₂ hexec
    cases hexec
    refine ⟨Nat.le_refl _, ?_⟩
    generalize m.backend.stat w₁.db readmePath ctx = found
    cases found with
    | ok | error => exact ⟨hw₁.1.trans hdb, hw₁.2.trans ht⟩
  · exact ⟨hdb, ht⟩

/-- A mutation that no other call overlaps. -/
theorem under_mutation {req : Request Ctx} (hmutates : req.mutates = true) (hdb : w.db = db)
    (ht : w.term = t) : Under (alone m) (Settled db t) (m.handler req) w := by
  cases req with
  | stat | list | read => cases hmutates
  | write | create =>
    refine (under_alone_reserved hdb ht).bind fun isReserved w' hw' => ?_
    split
    · exact hw'
    · intro w₁ hw₁ r w₂ hexec
      exact under_alone_settle (hw₁.1.trans hw'.1) (hw₁.2.trans hw'.2) hexec
  | remove =>
    refine (under_alone_reserved hdb ht).bind fun isReserved w' hw' => ?_
    split
    · exact hw'
    · intro w₁ hw₁ r w₂ hexec
      have hdb₁ := hw₁.1.trans hw'.1
      have ht₁ := hw₁.2.trans hw'.2
      simp only [alone, Mount.exec, Mount.answer] at hexec
      split at hexec
      · cases hexec
        exact ⟨Nat.le_refl _, under_alone_bump ht₁ fun w₃ hw₃ => hw₃⟩
      · cases hexec
        exact ⟨Nat.le_refl _, hdb₁, ht₁⟩
  | move =>
    intro w₁ hw₁ r w₂ hexec
    exact under_alone_settle (hw₁.1.trans hdb) (hw₁.2.trans ht) hexec

end Alone

/-! ## Any number of calls at once -/

namespace Mount

/-- The calls of a mount, interleaved step by step; the clock moves by itself. -/
def service (m : Mount σ Ctx Ns) :
    Service (Request Ctx) Answer (World σ Ns) Unit Nat (Op Ctx Ns) Op.Res where
  handler := m.handler
  admits _ _ := true
  exec p _ op _ := some (m.exec op p.world)
  moves p d := some { p.world with clock := p.world.clock + d }

end Mount

/-- The calls of a mount. -/
abbrev Calls (σ Ctx Ns : Type) := Pool (Request Ctx) Answer (World σ Ns) (Op Ctx Ns) Op.Res

abbrev Step (Ctx : Type) := Action (Request Ctx) Unit Nat

/-- A mutation of the backend that fails; every other answer. -/
def Refused : (op : Op Ctx Ns) → op.Res → Prop
  | .ask (.write ..), r | .ask (.create ..), r | .ask (.move ..), r =>
    ∃ failure, r = (Except.error failure : Except Failure Node)
  | .ask (.remove ..), r => ∃ failure, r = (Except.error failure : Except Failure Unit)
  | _, _ => True

namespace Mount

/-- Only requests in `A` arrive, and the backend's data stay as they are: mutations are
refused. -/
def Unchanged (m : Mount σ Ctx Ns) (A : Request Ctx → Prop) (p : Calls σ Ctx Ns) :
    Step Ctx → Prop
  | .arrive req => A req
  | .run i _ => ∀ req op k, p.threads[i]? = some (req, .call op k) → Refused op (m.exec op p.world).1
  | .move _ => True

/-- Requests in `A` with one key are told the same. -/
def Shared (m : Mount σ Ctx Ns) (A : Request Ctx → Prop) (db : σ) (gen : Nat) : Prop :=
  ∀ req other, A req → A other → m.key other = m.key req → ∀ report,
    m.direct db gen other = some (.ok report) → m.direct db gen req = some (.ok report)

end Mount

section Views

variable {A : Request Ctx → Prop} {db : σ} {gen : Nat} {w : World σ Ns}

omit [DecidableEq Ns] in

/-- Under a shared key the report of another caller is one's own. -/
theorem Mount.Reports.own (hshared : m.Shared A db gen) {req : Request Ctx} (hA : A req)
    {answer : Answer} (h : m.Reports A db gen req answer) : m.direct db gen req = some answer := by
  rcases h with h | ⟨report, other, rfl, hother, hkey, hdirect⟩
  · exact h
  · exact hshared req other hA hother hkey report hdirect

variable {ok : (op : Op Ctx Ns) → op.Res → Prop}

theorem under_reserved {path : Path} {ctx : Ctx} :
    Under (steady m A ok db gen) (fun _ _ => True) (Mount.reserved path ctx) w := by
  rw [Mount.reserved]
  split
  · refine under_ask_stat.bind fun found _ _ => ?_
    cases found with
    | ok | error => trivial
  · trivial

/-- What is left of a refused mutation. -/
theorem under_refused_settle {x : Except Failure (Node × σ)} {r : Except Failure Node}
    {w₁ w₂ : World σ Ns} (hw₁ : Steady m A db gen w₁) (h : Mount.settle w₁ x = (r, w₂))
    (hr : ∃ failure, r = .error failure) :
    Steady m A db gen w₂ ∧
      Under (steady m A Refused db gen) (fun _ _ => True) (Mount.mutated r) w₂ := by
  obtain ⟨failure, rfl⟩ := hr
  cases x with
  | ok => cases h
  | error =>
    cases h
    exact ⟨hw₁, trivial⟩

/-- A mutation that the backend refuses changes nothing. -/
theorem under_refused {req : Request Ctx} (hmutates : req.mutates = true) :
    Under (steady m A Refused db gen) (fun _ _ => True) (m.handler req) w := by
  cases req with
  | stat | list | read => cases hmutates
  | write | create =>
    refine under_reserved.bind fun isReserved _ _ => ?_
    split
    · trivial
    · exact fun w₁ hw₁ r w₂ hexec => under_refused_settle hw₁ hexec.1 hexec.2
  | remove =>
    refine under_reserved.bind fun isReserved _ _ => ?_
    split
    · trivial
    · intro w₁ hw₁ r w₂ hexec
      obtain ⟨hanswer, failure, hr⟩ := hexec
      subst hr
      simp only [Mount.exec, Mount.answer] at hanswer
      split at hanswer
      · cases hanswer
      · cases hanswer
        exact ⟨hw₁, trivial⟩
  | move => exact fun w₁ hw₁ r w₂ hexec => under_refused_settle hw₁ hexec.1 hexec.2

/-- In a pool of reads and refused mutations, the world is steady, every call goes on as
it should and every read that has been answered was told what it asked for. -/
structure Viewing (m : Mount σ Ctx Ns) (A : Request Ctx → Prop) (db : σ) (gen : Nat)
    (p : Calls σ Ctx Ns) : Prop where
  steady : Steady m A db gen p.world
  calls : ∀ req prog, (req, prog) ∈ p.threads → A req ∧
    Under (Vfs.steady m A Refused db gen)
      (fun a _ => req.mutates = false → m.Reports A db gen req a) prog p.world

/-- It does not matter to a call how a steady world moves. -/
theorem under_steady_move {Q : Answer → Prop} {prog : Call Ctx Ns Answer} {w' : World σ Ns}
    (h : Under (Vfs.steady m A ok db gen) (fun a _ => Q a) prog w) (hw' : Steady m A db gen w') :
    Under (Vfs.steady m A ok db gen) (fun a _ => Q a) prog w' :=
  h.rely (fun _ hv => hv) (fun hQ _ => hQ) hw'

theorem Viewing.step {p q : Calls σ Ctx Ns} {a : Step Ctx} (h : Viewing m A db gen p)
    (hC : m.Unchanged A p a) (hstep : m.service.step p a = some q) : Viewing m A db gen q := by
  rcases Service.step_cases hstep with ⟨req, rfl, -, rfl⟩ |
    ⟨i, choice, req, op, k, r, w, rfl, hthread, hexec, rfl⟩ | ⟨d, w, rfl, hmove, rfl⟩
  · refine ⟨h.steady, fun req' prog hmem => ?_⟩
    rcases List.mem_append.mp hmem with hold | hnew
    · exact h.calls req' prog hold
    · obtain ⟨rfl, rfl⟩ := Prod.mk.inj (List.mem_singleton.mp hnew)
      refine ⟨hC, ?_⟩
      cases hmutates : req'.mutates with
      | true => exact (under_refused hmutates).mono fun _ _ _ h => by cases h
      | false => exact (under_handler hC hmutates).mono fun _ _ h _ => h
  · obtain ⟨hA, hunder⟩ := h.calls req _ (List.mem_of_getElem? hthread)
    have hexec' : m.exec op p.world = (r, w) := Option.some.inj hexec
    have hrefused : Refused op r := by
      have := hC req op k hthread
      rwa [hexec'] at this
    obtain ⟨hw, hnext⟩ := hunder p.world h.steady r w ⟨hexec', hrefused⟩
    refine ⟨hw, fun req' prog hmem => ?_⟩
    rcases List.mem_or_eq_of_mem_set hmem with hold | hnew
    · exact ⟨(h.calls req' prog hold).1, under_steady_move (h.calls req' prog hold).2 hw⟩
    · obtain ⟨rfl, rfl⟩ := Prod.mk.inj hnew
      exact ⟨hA, hnext⟩
  · cases hmove
    have hw : Steady m A db gen { p.world with clock := p.world.clock + d } :=
      ⟨h.steady.db_eq, h.steady.gen_eq, h.steady.sound⟩
    refine ⟨hw, fun req prog hmem => ?_⟩
    exact ⟨(h.calls req prog hmem).1, under_steady_move (h.calls req prog hmem).2 hw⟩

/-- Each answer to a read is what the caller is told without the cache. -/
theorem own_view (hempty : w.term.entries = fun _ => ∅) (hshared : m.Shared A w.db w.term.gen)
    {p : Calls σ Ctx Ns} (hp : m.service.ReachUnder (m.Unchanged A) (Pool.idle w) p) {i : Nat}
    {req : Request Ctx} {answer : Answer} (hanswer : p.threads[i]? = some (req, .ret answer))
    (hread : req.mutates = false) : m.direct w.db w.term.gen req = some answer := by
  have hstart : Viewing m A w.db w.term.gen (Pool.idle w) := by
    refine ⟨⟨rfl, rfl, ?_⟩, fun _ _ hmem => by cases hmem⟩
    change Sound m A w.db w.term.gen w.term.entries
    rw [hempty]
    exact sound_empty
  have hview := hp.invariant (Viewing m A w.db w.term.gen) (fun _ _ _ h hC hs => h.step hC hs) hstart
  obtain ⟨hA, hreports⟩ := hview.calls req _ (List.mem_of_getElem? hanswer)
  exact Mount.Reports.own hshared hA (hreports hread)

/-- The backend looks at nothing of a context but the options of the mount. -/
structure ByOptions (m : Mount σ Ctx Ns) : Prop where
  stat : ∀ db path c c', m.ns c = m.ns c' → m.backend.stat db path c = m.backend.stat db path c'
  list : ∀ db path cursor c c', m.ns c = m.ns c' →
    m.backend.list db path cursor c = m.backend.list db path cursor c'
  read : ∀ db path c c', m.ns c = m.ns c' → m.backend.read db path c = m.backend.read db path c'
  readme : ∀ c c', m.ns c = m.ns c' → m.readme c = m.readme c'

/-- The key of a listing tells the path from the cursor. -/
def Request.Tidy : Request Ctx → Prop
  | .list path cursor _ => '\x00' ∉ path ∧ cursor ≠ some []
  | _ => True

theorem listKey_inj {path path' : Path} {cursor cursor' : Option Text} (hpath : '\x00' ∉ path)
    (hpath' : '\x00' ∉ path') (hcursor : cursor ≠ some []) (hcursor' : cursor' ≠ some [])
    (h : listKey path cursor = listKey path' cursor') : path = path' ∧ cursor = cursor' := by
  have hsplit : path = path' ∧ cursor.getD [] = cursor'.getD [] := by
    induction path generalizing path' with
    | nil =>
      cases path' with
      | nil => exact ⟨rfl, (List.cons.inj h).2⟩
      | cons =>
        obtain ⟨rfl, -⟩ := List.cons.inj h
        exact absurd List.mem_cons_self hpath'
    | cons c _ ih =>
      cases path' with
      | nil =>
        obtain ⟨rfl, -⟩ := List.cons.inj h
        exact absurd List.mem_cons_self hpath
      | cons =>
        obtain ⟨rfl, hrest⟩ := List.cons.inj h
        obtain ⟨rfl, hcursors⟩ := ih (mt (List.mem_cons_of_mem c) hpath)
          (mt (List.mem_cons_of_mem c) hpath') hrest
        exact ⟨rfl, hcursors⟩
  refine ⟨hsplit.1, ?_⟩
  have hnone := hsplit.2
  cases cursor with
  | none =>
    cases cursor' with
    | none => rfl
    | some => exact absurd (congrArg some hnone.symm) hcursor'
  | some =>
    cases cursor' with
    | none => exact absurd (congrArg some hnone) hcursor
    | some => exact congrArg some hnone

omit [DecidableEq Ns] in

/-- With such a backend and such keys nothing is left that a view could depend on. -/
theorem ByOptions.shared (h : ByOptions m) : m.Shared Request.Tidy db gen := by
  intro req other hreq hother hkey report hdirect
  rw [← hdirect]
  cases req with
  | stat path ctx =>
    cases other with
    | stat path' ctx' =>
      obtain ⟨hns, rfl⟩ : m.ns ctx' = m.ns ctx ∧ path' = path := by simpa [Mount.key] using hkey
      simp only [Mount.direct, Mount.rawStat, h.stat db _ _ _ hns, h.readme _ _ hns]
    | _ => simp [Mount.key] at hkey
  | list path cursor ctx =>
    cases other with
    | list path' cursor' ctx' =>
      obtain ⟨hns, hlist⟩ : m.ns ctx' = m.ns ctx ∧
          listKey path' cursor' = listKey path cursor := by
        simpa [Mount.key] using hkey
      obtain ⟨rfl, rfl⟩ := listKey_inj hother.1 hreq.1 hother.2 hreq.2 hlist
      simp only [Mount.direct, Mount.rawList, h.list db _ _ _ _ hns, h.readme _ _ hns]
    | _ => simp [Mount.key] at hkey
  | read path ctx =>
    cases other with
    | read path' ctx' =>
      obtain ⟨hns, rfl⟩ : m.ns ctx' = m.ns ctx ∧ path' = path := by simpa [Mount.key] using hkey
      simp only [Mount.direct, Mount.rawRead, h.read db _ _ _ hns, h.readme _ _ hns]
    | _ => simp [Mount.key] at hkey
  | write | create | remove | move => 
      cases other with
      | write | create | remove | move => rfl
      | _ => simp [Mount.key] at hkey

/-! A backend with one file, and callers with options of their mount and a principal. -/

/-- What a call's context holds: the `vfs_opts` of its mount, and the principal. -/
structure Caller where
  options : Nat
  principal : Text
  deriving DecidableEq

namespace Note

def path : Path := "/note".toList

def node (data : Text) : Node where
  type := .file
  size := data.length
  writable := true

/-- One file, which every caller may write. -/
def backend : Backend Text Caller where
  stat data path _ := if path = Note.path then .ok (node data) else .error .enoent
  list data path _ _ :=
    if path = ['/'] then
      .ok ([{ name := "note".toList, type := .file, size := data.length, version := some 1 }], none)
    else .error .enotdir
  read data path _ := if path = Note.path then .ok (data, 1) else .error .enoent
  write _ _ path data _ := if path = Note.path then .ok (node data, data) else .error .enoent
  create _ _ _ _ _ := .error .erofs
  remove _ _ _ := .error .erofs
  move _ _ _ _ := .error .erofs

/-- The mount of the note. `ns/1` takes the `vfs_opts` for the namespace. -/
def mount : Mount Text Caller Nat where
  backend := backend
  readme _ := []
  ns := Caller.options

/-- The file holds a text of its own for each principal. -/
def greeting : Mount Text Caller Nat where
  backend := { backend with
    read := fun _ path ctx => if path = Note.path then .ok (ctx.principal, 1) else .error .enoent }
  readme _ := []
  ns := Caller.options

def alice : Caller := ⟨0, "alice".toList⟩

def bob : Caller := ⟨0, "bob".toList⟩

/-- A call that arrives as the `i`th and takes `n` steps. -/
def whole (i n : Nat) (req : Request Caller) : List (Step Caller) :=
  .arrive req :: List.replicate n (.run i ())

def answerOf : Call Caller Nat Answer → Option Answer
  | .ret answer => some answer
  | .call _ _ => none

/-- Kept at hand for pairs and lists of such results. -/
instance : DecidableEq (Request Caller × Option Answer) := inferInstance

/-- The requests of a pool with their answers so far. -/
def answers (p : Calls Text Caller Nat) : List (Request Caller × Option Answer) :=
  p.threads.map fun t => (t.1, answerOf t.2)

theorem answered_of_answers {p : Calls Text Caller Nat} {i : Nat} {req : Request Caller}
    {answer : Answer} (h : (answers p)[i]? = some (req, some answer)) :
    p.threads[i]? = some (req, .ret answer) := by
  rw [answers, List.getElem?_map] at h
  obtain ⟨⟨req', prog⟩, hthread, heq⟩ := Option.map_eq_some_iff.mp h
  cases prog with
  | ret =>
    cases heq
    exact hthread
  | call => cases heq

end Note

/-- The next operation of a call, if it is a mutation of the backend. -/
def Op.mutates : Op Ctx Ns → Bool
  | .ask (.write ..) | .ask (.create ..) | .ask (.remove ..) | .ask (.move ..) => true
  | _ => false

omit [DecidableEq Ns] in

theorem refused_of_not_mutates {op : Op Ctx Ns} {r : op.Res} (h : op.mutates = false) :
    Refused op r := by
  cases op with
  | term | setTerm | now => trivial
  | ask call =>
    cases call with
    | stat | list | read => trivial
    | write | create | remove | move => cases h

namespace Note

theorem byOptions : ByOptions mount :=
  ⟨fun _ _ _ _ _ => rfl, fun _ _ _ _ _ _ => rfl, fun _ _ _ _ _ => rfl, fun _ _ _ => rfl⟩

/-- Only reads of contents arrive and only reads are done. -/
def reading (p : Calls Text Caller Nat) : Step Caller → Bool
  | .arrive (.read ..) => true
  | .arrive _ => false
  | .run i _ => match p.threads[i]? with
    | some (_, .call op _) => !op.mutates
    | _ => true
  | .move _ => true

theorem unchanged_of_reading {p : Calls Text Caller Nat} {a : Step Caller}
    (h : reading p a = true) : mount.Unchanged Request.Tidy p a := by
  cases a with
  | arrive req =>
    cases req with
    | read => trivial
    | _ => cases h
  | run =>
    intro req op k hthread
    simp only [reading, hthread, Bool.not_eq_true'] at h
    exact refused_of_not_mutates h
  | move => trivial

end Note

open Note in

/-- The second caller is answered from the cache, as without it. -/
theorem own_view_note :
    ∃ p : Calls Text Caller Nat, p.threads[1]? =
        some (.read path bob none, .ret (.ok (.content "x".toList 1))) ∧
      mount.direct "x".toList 0 (.read path bob none) = some (.ok (.content "x".toList 1)) := by
  have hrun : ((mount.service.runsIf reading (Pool.idle { db := "x".toList })
      (whole 0 7 (.read path alice none) ++ whole 1 3 (.read path bob none))).map answers) =
        some [(.read path alice none, some (.ok (.content "x".toList 1))),
          (.read path bob none, some (.ok (.content "x".toList 1)))] := by
    decide +kernel
  obtain ⟨p, hp, hanswers⟩ := Option.map_eq_some_iff.mp hrun
  have hanswer : p.threads[1]? =
      some (.read path bob none, .ret (.ok (.content "x".toList 1))) :=
    answered_of_answers (by rw [hanswers]; rfl)
  have hreach : mount.service.ReachUnder (mount.Unchanged Request.Tidy)
      (Pool.idle { db := "x".toList }) p :=
    (Service.reachUnder_of_runsIf hp).mono fun _ _ => unchanged_of_reading
  exact ⟨p, hanswer, own_view rfl byOptions.shared hreach hanswer rfl⟩

open Note in

/-- The second caller is told what the file holds for the first. -/
theorem told_anothers_view :
    (greeting.service.runs (Pool.idle { db := [] })
      (whole 0 7 (.read path alice none) ++ whole 1 3 (.read path bob none))).map answers =
        some [(.read path alice none, some (.ok (.content "alice".toList 1))),
          (.read path bob none, some (.ok (.content "alice".toList 1)))] ∧
      greeting.direct [] 0 (.read path bob none) = some (.ok (.content "bob".toList 1)) := by
  decide +kernel

end Views

end NoizuMcp.Vfs
