import Mathlib.Data.List.Perm.Basic
import NoizuMcp.Vfs.Coherence

/-!
# When a write is visible

The dispatcher calls the backend, then raises the generation and drops the entries, and
returns. Reads that start later find the new data as long as no call of the dispatcher
overlaps a mutation (`Apart`): the pool is then either reading, in a steady world, or one
mutation runs in it alone (`Phase`). A reader that misses before the mutation and fills the
cache after it leaves the old data there under the new generation (`stale_after_write`),
and two mutations that overlap can raise the generation once.
-/

set_option autoImplicit false

namespace NoizuMcp.Vfs

open Foundation (Prog Table Pool Service Action Setting)

open Foundation.Prog (Under under_pure)

variable {σ Ctx Ns : Type} [DecidableEq Ns] {m : Mount σ Ctx Ns}

/-- A call that has returned. -/
def finished (t : Request Ctx × Call Ctx Ns Answer) : Bool :=
  match t.2 with
  | .ret _ => true
  | .call _ _ => false

/-- A mutation that has returned with success. -/
def succeeded (t : Request Ctx × Call Ctx Ns Answer) : Bool :=
  match t.2 with
  | .ret (.ok _) => t.1.mutates
  | _ => false

/-- How many mutations have returned with success. -/
def successes (p : Calls σ Ctx Ns) : Nat := p.threads.countP succeeded

/-- No call starts while a mutation is in progress, and no mutation while any call is. -/
def Apart (p : Calls σ Ctx Ns) : Step Ctx → Bool
  | .arrive req => p.threads.all fun t => finished t || (!req.mutates && !t.1.mutates)
  | _ => true

/-- No mutation is in progress. -/
def Quiet (p : Calls σ Ctx Ns) : Bool := p.threads.all fun t => finished t || !t.1.mutates

/-- Every answer may be given. -/
def anyAnswer (op : Op Ctx Ns) (_ : op.Res) : Prop := True

/-- The setting of the reads in a pool. -/
abbrev reads (m : Mount σ Ctx Ns) (w : World σ Ns) : Setting (World σ Ns) (Op Ctx Ns) Op.Res :=
  steady m (fun _ => True) anyAnswer w.db w.term.gen

/-- What a read reports about the world as it is. -/
abbrev Told (m : Mount σ Ctx Ns) (w : World σ Ns) (req : Request Ctx) (answer : Answer) : Prop :=
  m.Reports (fun _ => True) w.db w.term.gen req answer

/-- Only reads are in progress. -/
structure Reading (m : Mount σ Ctx Ns) (p : Calls σ Ctx Ns) : Prop where
  sound : Sound m (fun _ => True) p.world.db p.world.term.gen p.world.term.entries
  counted : p.world.term.gen = successes p
  calls : ∀ req op k, (req, .call op k) ∈ p.threads → req.mutates = false ∧
    Under (reads m p.world) (fun a _ => Told m p.world req a) (.call op k) p.world

/-- One mutation is in progress, which found the data `db` and the term `t`, and nothing
else is. -/
structure Mutating (m : Mount σ Ctx Ns) (p : Calls σ Ctx Ns) (i : Nat) (req : Request Ctx)
    (prog : Call Ctx Ns Answer) (db : σ) (t : Term Ns) : Prop where
  thread : p.threads[i]? = some (req, prog)
  mutates : req.mutates = true
  others : ∀ j other, j ≠ i → p.threads[j]? = some other → finished other = true
  sound : Sound m (fun _ => True) db t.gen t.entries
  counted : t.gen = (p.threads.eraseIdx i).countP succeeded
  under : Under (alone m) (Settled db t) prog p.world

/-- Where a pool can be. -/
def Phase (m : Mount σ Ctx Ns) (p : Calls σ Ctx Ns) : Prop :=
  Reading m p ∨ ∃ i req op k db t, Mutating m p i req (.call op k) db t

section Steps

variable {p q : Calls σ Ctx Ns} {i j : Nat} {req other : Request Ctx} {op op' : Op Ctx Ns}
  {k : op.Res → Call Ctx Ns Answer} {r : op.Res} {w : World σ Ns} {db : σ} {t : Term Ns}

theorem Reading.steady (h : Reading m p) :
    Steady m (fun _ => True) p.world.db p.world.term.gen p.world :=
  ⟨rfl, rfl, h.sound⟩

omit [DecidableEq Ns] in

theorem succeeded_call : succeeded (req, .call op k) = false := rfl

omit [DecidableEq Ns] in

theorem succeeded_read (h : req.mutates = false) (prog : Call Ctx Ns Answer) :
    succeeded (req, prog) = false := by
  rcases prog with (_ | _) | _
  · rfl
  · exact h
  · rfl

/-- A read arrives among reads. -/
theorem Reading.arrive_read (h : Reading m p) (hread : req.mutates = false) :
    Reading m { p with threads := p.threads ++ [(req, m.handler req)] } := by
  refine ⟨h.sound, ?_, fun req' op k hmem => ?_⟩
  · rw [successes, List.countP_append, List.countP_singleton, succeeded_read hread]
    exact h.counted
  · rcases List.mem_append.mp hmem with hold | hnew
    · exact h.calls req' op k hold
    · obtain ⟨rfl, hprog⟩ := Prod.mk.inj (List.mem_singleton.mp hnew)
      refine ⟨hread, ?_⟩
      rw [hprog]
      exact under_handler trivial hread

/-- A mutation arrives when everything has returned. -/
theorem Reading.arrive_mutation (h : Reading m p) (hmutates : req.mutates = true)
    (hall : ∀ t ∈ p.threads, finished t = true) :
    Mutating m { p with threads := p.threads ++ [(req, m.handler req)] } p.threads.length req
      (m.handler req) p.world.db p.world.term := by
  refine ⟨List.getElem?_concat_length, hmutates, ?_, h.sound, ?_, under_mutation hmutates rfl rfl⟩
  · intro j other hj hother
    refine hall other ?_
    rcases Nat.lt_or_gt_of_ne hj with hlt | hgt
    · rw [List.getElem?_append_left hlt] at hother
      exact List.mem_of_getElem? hother
    · rw [List.getElem?_eq_none (by simp; omega)] at hother
      cases hother
  · rw [h.counted, successes, List.eraseIdx_append_of_length_le (Nat.le_refl _), Nat.sub_self,
      List.eraseIdx_zero, List.tail_cons, List.append_nil]

omit [DecidableEq Ns] in

/-- The calls that succeeded, one of them looked at by itself. -/
theorem successes_eq {t : Request Ctx × Call Ctx Ns Answer} (h : p.threads[i]? = some t) :
    successes p = (p.threads.eraseIdx i).countP succeeded + if succeeded t then 1 else 0 := by
  obtain ⟨hlt, rfl⟩ := List.getElem?_eq_some_iff.mp h
  rw [successes, ← List.Perm.countP_eq succeeded (List.getElem_cons_eraseIdx_perm hlt),
    List.countP_cons]

/-- A mutation that has returned leaves a pool in which only reads can be in progress. -/
theorem Mutating.returned {answer : Answer} (h : Mutating m p i req (.ret answer) db t) :
    Reading m p := by
  have hcount := successes_eq h.thread
  have hnone : ∀ req' op k, (req', Prog.call op k) ∉ p.threads := by
    intro req' op k hmem
    obtain ⟨j, hj⟩ := List.mem_iff_getElem?.mp hmem
    by_cases hji : j = i
    · subst hji
      rw [h.thread] at hj
      cases hj
    · exact absurd (h.others j _ hji hj) Bool.false_ne_true
  have hsettled := h.under
  cases answer with
  | ok =>
    have hterm : p.world.term = { gen := t.gen + 1 } := hsettled
    refine ⟨?_, ?_, fun req' op k hmem => absurd hmem (hnone req' op k)⟩
    · rw [hterm]
      exact sound_empty
    · rw [hterm, hcount, ← h.counted]
      simp only [succeeded, h.mutates, if_true]
  | error =>
    obtain ⟨hdb, hterm⟩ : p.world.db = db ∧ p.world.term = t := hsettled
    refine ⟨?_, ?_, fun req' op k hmem => absurd hmem (hnone req' op k)⟩
    · rw [hdb, hterm]
      exact h.sound
    · rw [hterm, hcount, ← h.counted]
      rfl

/-- A mutation is in progress or has returned. -/
theorem Mutating.phase {prog : Call Ctx Ns Answer} (h : Mutating m p i req prog db t) :
    Phase m p := by
  cases prog with
  | ret => exact .inl h.returned
  | call op k => exact .inr ⟨i, req, op, k, db, t, h⟩

/-- A step of the mutation that is in progress. -/
theorem Mutating.run (h : Mutating m p i req (.call op k) db t)
    (hexec : m.exec op p.world = (r, w)) {log : List (Nat × Foundation.Event (Op Ctx Ns) Op.Res)} :
    Mutating m ⟨w, p.threads.set i (req, k r), log⟩ i req (k r) db t ∧
      p.world.term.gen ≤ w.term.gen := by
  have hlt := (List.getElem?_eq_some_iff.mp h.thread).1
  obtain ⟨hgrow, hunder⟩ := h.under p.world ⟨rfl, rfl⟩ r w hexec
  refine ⟨⟨List.getElem?_set_self hlt, h.mutates, ?_, h.sound, ?_, hunder⟩, hgrow⟩
  · intro j other hj hother
    exact h.others j other hj ((List.getElem?_set_ne hj.symm).symm.trans hother)
  · rw [List.eraseIdx_set_eq]
    exact h.counted

/-- A step of a read: the data and the generation stay. -/
theorem Reading.run (h : Reading m p) (hthread : p.threads[i]? = some (req, .call op k))
    (hexec : m.exec op p.world = (r, w))
    (log : List (Nat × Foundation.Event (Op Ctx Ns) Op.Res)) :
    Reading m ⟨w, p.threads.set i (req, k r), log⟩ ∧ w.db = p.world.db ∧
      w.term.gen = p.world.term.gen ∧ ∀ answer, k r = .ret answer → Told m p.world req answer := by
  obtain ⟨hread, hunder⟩ := h.calls req op k (List.mem_of_getElem? hthread)
  obtain ⟨hw, hnext⟩ := hunder p.world h.steady r w ⟨hexec, trivial⟩
  have hlt := (List.getElem?_eq_some_iff.mp hthread).1
  refine ⟨⟨?_, ?_, ?_⟩, hw.db_eq, hw.gen_eq, ?_⟩
  · rw [hw.db_eq, hw.gen_eq]
    exact hw.sound
  · have hthread' : (p.threads.set i (req, k r))[i]? = some (req, k r) :=
      List.getElem?_set_self hlt
    rw [hw.gen_eq, h.counted, successes_eq hthread, successes_eq hthread', List.eraseIdx_set_eq,
      succeeded_call, succeeded_read hread]
  · intro req' op' k' hmem
    change _ ∧ Under (Vfs.steady m _ anyAnswer w.db w.term.gen)
      (fun a _ => m.Reports _ w.db w.term.gen req' a) _ w
    rw [hw.db_eq, hw.gen_eq]
    rcases List.mem_or_eq_of_mem_set hmem with hold | hnew
    · exact ⟨(h.calls req' op' k' hold).1, under_steady_move (h.calls req' op' k' hold).2 hw⟩
    · obtain ⟨rfl, hprog⟩ := Prod.mk.inj hnew
      rw [hprog]
      exact ⟨hread, hnext⟩
  · intro answer hanswer
    rw [hanswer] at hnext
    exact hnext

/-- A mutation in progress is the only call in progress. -/
theorem Mutating.only {k' : op'.Res → Call Ctx Ns Answer} (h : Mutating m p i req (.call op k) db t)
    (hj : p.threads[j]? = some (other, .call op' k')) : j = i := by
  by_contra hji
  exact absurd (h.others j _ hji hj) Bool.false_ne_true

/-- What a step does to the phase and to the generation; while there is a read in progress
the data and the generation stay. -/
theorem Phase.step {a : Step Ctx} (h : Phase m p) (hC : Apart p a = true)
    (hstep : m.service.step p a = some q) :
    Phase m q ∧ p.world.term.gen ≤ q.world.term.gen ∧
      (Reading m p → q.world.db = p.world.db ∧ q.world.term.gen = p.world.term.gen) := by
  rcases Service.step_cases hstep with ⟨req, rfl, -, rfl⟩ |
    ⟨i, choice, req, op, k, r, w, rfl, hthread, hexec, rfl⟩ | ⟨d, w, rfl, hmove, rfl⟩
  · refine ⟨?_, Nat.le_refl _, fun _ => ⟨rfl, rfl⟩⟩
    have hapart := List.all_eq_true.mp hC
    rcases h with hreading | ⟨i, req', op, k, db, t, hmutating⟩
    · cases hmutates : req.mutates with
      | false => exact .inl (hreading.arrive_read hmutates)
      | true =>
        refine (hreading.arrive_mutation hmutates fun t ht => ?_).phase
        simpa [hmutates] using hapart t ht
    · -- nothing starts while a mutation is in progress
      have := hapart _ (List.mem_of_getElem? hmutating.thread)
      simp [finished, hmutating.mutates] at this
  · have hexec' : m.exec op p.world = (r, w) := Option.some.inj hexec
    rcases h with hreading | ⟨j, req', op', k', db, t, hmutating⟩
    · obtain ⟨hnext, hdb, hgen, -⟩ := hreading.run hthread hexec' _
      exact ⟨.inl hnext, Nat.le_of_eq hgen.symm, fun _ => ⟨hdb, hgen⟩⟩
    · obtain rfl := hmutating.only hthread
      have hsame := hmutating.thread.symm.trans hthread
      cases hsame
      obtain ⟨hnext, hgrow⟩ := hmutating.run hexec'
      refine ⟨hnext.phase, hgrow, fun hreading => ?_⟩
      have hread := (hreading.calls _ _ _ (List.mem_of_getElem? hthread)).1
      rw [hmutating.mutates] at hread
      cases hread
  · cases hmove
    refine ⟨?_, Nat.le_refl _, fun _ => ⟨rfl, rfl⟩⟩
    rcases h with hreading | ⟨i, req, op, k, db, t, hmutating⟩
    · refine .inl ⟨hreading.sound, hreading.counted, fun req op k hmem => ?_⟩
      obtain ⟨hread, hunder⟩ := hreading.calls req op k hmem
      exact ⟨hread, under_steady_move hunder ⟨rfl, rfl, hreading.sound⟩⟩
    · refine .inr ⟨i, req, op, k, db, t, hmutating.thread, hmutating.mutates, hmutating.others,
        hmutating.sound, hmutating.counted, fun w₁ hw₁ => ?_⟩
      exact hmutating.under w₁ hw₁

/-- While the read at `i` is in progress, the pool is reading. -/
theorem Phase.reading (h : Phase m p) (hread : req.mutates = false)
    (hthread : p.threads[i]? = some (req, .call op k)) : Reading m p := by
  rcases h with hreading | ⟨j, req', op', k', db, t, hmutating⟩
  · exact hreading
  · obtain rfl := hmutating.only hthread
    have hsame := hmutating.thread.symm.trans hthread
    cases hsame
    rw [hmutating.mutates] at hread
    cases hread

end Steps

/-! ## Reads that start later -/

/-- The read at `i`, which started when the data were `db` in the generation `gen`: it has
been told so, or it is in progress and both are still the same. -/
structure Following (m : Mount σ Ctx Ns) (db : σ) (gen i : Nat) (req : Request Ctx)
    (p : Calls σ Ctx Ns) : Prop where
  phase : Phase m p
  told : (∃ answer, p.threads[i]? = some (req, .ret answer) ∧
      m.Reports (fun _ => True) db gen req answer) ∨
    ∃ op k, p.threads[i]? = some (req, .call op k) ∧ p.world.db = db ∧ p.world.term.gen = gen

section Later

variable {p p' q : Calls σ Ctx Ns} {req : Request Ctx}

/-- A read that has just arrived. -/
theorem following_arrive (h : Phase m p) (hread : req.mutates = false)
    (hC : Apart p (.arrive req) = true) (hstep : m.service.step p (.arrive req) = some p') :
    Following m p.world.db p.world.term.gen p.threads.length req p' := by
  refine ⟨(h.step hC hstep).1, ?_⟩
  obtain ⟨-, rfl⟩ : True ∧ p' = { p with threads := p.threads ++ [(req, m.handler req)] } :=
    ⟨trivial, (Option.some.inj hstep).symm⟩
  have hthread : (p.threads ++ [(req, m.handler req)])[p.threads.length]? =
      some (req, m.handler req) := List.getElem?_concat_length
  have hunder : Under (reads m p.world) (fun a _ => Told m p.world req a) (m.handler req) p.world :=
    under_handler trivial hread
  cases hprog : m.handler req with
  | ret answer =>
    rw [hprog] at hthread hunder
    exact .inl ⟨answer, hthread, hunder⟩
  | call op k =>
    rw [hprog] at hthread
    exact .inr ⟨op, k, hthread, rfl, rfl⟩

theorem Following.step {db : σ} {gen i : Nat} {a : Step Ctx}
    (h : Following m db gen i req p) (hread : req.mutates = false) (hC : Apart p a = true)
    (hstep : m.service.step p a = some q) : Following m db gen i req q := by
  obtain ⟨hphase, hgrow, hstay⟩ := h.phase.step hC hstep
  refine ⟨hphase, ?_⟩
  rcases Service.step_cases hstep with ⟨arrived, rfl, -, rfl⟩ |
    ⟨j, choice, req', op', k', r, w, rfl, hthread, hexec, rfl⟩ | ⟨d, w, rfl, hmove, rfl⟩
  · have hkeep : ∀ t, p.threads[i]? = some t →
        (p.threads ++ [(arrived, m.handler arrived)])[i]? = some t := fun t ht =>
      (List.getElem?_append_left (List.getElem?_eq_some_iff.mp ht).1).trans ht
    rcases h.told with ⟨answer, hi, htold⟩ | ⟨op, k, hi, hsame⟩
    · exact .inl ⟨answer, hkeep _ hi, htold⟩
    · exact .inr ⟨op, k, hkeep _ hi, hsame⟩
  · by_cases hji : j = i
    · -- a step of the read itself
      subst hji
      rcases h.told with ⟨answer, hi, -⟩ | ⟨op, k, hi, hdb, hgen⟩
      · rw [hi] at hthread
        cases hthread
      · rw [hi] at hthread
        cases hthread
        have hlt := (List.getElem?_eq_some_iff.mp hi).1
        have hreading := h.phase.reading hread hi
        obtain ⟨-, hdb', hgen', htold⟩ := hreading.run hi (Option.some.inj hexec) []
        have hthread : (p.threads.set j (req, k' r))[j]? = some (req, k' r) :=
          List.getElem?_set_self hlt
        cases hprog : k' r with
        | ret answer =>
          have := htold answer hprog
          rw [Told, hdb, hgen] at this
          rw [hprog] at hthread
          exact .inl ⟨answer, hthread, this⟩
        | call op k =>
          rw [hprog] at hthread
          exact .inr ⟨op, k, hthread, hdb'.trans hdb, hgen'.trans hgen⟩
    · have hkeep : (p.threads.set j (req', k' r))[i]? = p.threads[i]? := List.getElem?_set_ne hji
      rcases h.told with ⟨answer, hi, htold⟩ | ⟨op, k, hi, hdb, hgen⟩
      · exact .inl ⟨answer, hkeep.trans hi, htold⟩
      · obtain ⟨hdb', hgen'⟩ := hstay (h.phase.reading hread hi)
        exact .inr ⟨op, k, hkeep.trans hi, hdb'.trans hdb, hgen'.trans hgen⟩
  · cases hmove
    exact h.told

/-- The pools that calls reach when mutations are apart from all other calls. -/
abbrev ReachApart (m : Mount σ Ctx Ns) : Calls σ Ctx Ns → Calls σ Ctx Ns → Prop :=
  m.service.ReachUnder fun p a => Apart p a = true

theorem Phase.reach (h : ReachApart m p q) (hp : Phase m p) :
    Phase m q ∧ p.world.term.gen ≤ q.world.term.gen :=
  h.invariant (fun q => Phase m q ∧ p.world.term.gen ≤ q.world.term.gen)
    (fun _ _ _ hi hC hs => ⟨(hi.1.step hC hs).1, Nat.le_trans hi.2 (hi.1.step hC hs).2.1⟩)
    ⟨hp, Nat.le_refl _⟩

theorem phase_idle {w : World σ Ns} (hw : w.term = {}) : Phase m (Pool.idle w) := by
  refine .inl ⟨?_, ?_, fun _ _ _ hmem => by cases hmem⟩
  · change Sound m _ w.db w.term.gen w.term.entries
    rw [hw]
    exact sound_empty
  · change w.term.gen = 0
    rw [hw]

/-- A pool with no mutation in progress is reading. -/
theorem Phase.of_quiet (h : Phase m p) (hquiet : Quiet p = true) : Reading m p := by
  rcases h with hreading | ⟨i, req, op, k, db, t, hmutating⟩
  · exact hreading
  · have := List.all_eq_true.mp hquiet _ (List.mem_of_getElem? hmutating.thread)
    simp [finished, hmutating.mutates] at this

/-- With mutations apart from all other calls, a read reports the data as they were when it
started, after every mutation that had returned; the generation never decreases, and it
counts the mutations that succeeded. -/
theorem visible_when_apart {w : World σ Ns} (hw : w.term = {})
    (hp : ReachApart m (Pool.idle w) p) :
    (∀ req p' q answer, req.mutates = false → Apart p (.arrive req) = true →
        m.service.step p (.arrive req) = some p' → ReachApart m p' q →
        q.Answered p.threads.length answer →
          m.Reports (fun _ => True) p.world.db p.world.term.gen req answer) ∧
      (∀ q, ReachApart m p q → p.world.term.gen ≤ q.world.term.gen) ∧
      (Quiet p = true → p.world.term.gen = successes p) := by
  have hphase := (Phase.reach hp (phase_idle hw)).1
  refine ⟨?_, fun q hq => (hphase.reach hq).2, fun hquiet => (hphase.of_quiet hquiet).counted⟩
  intro req p' q answer hread hC hstep hq hanswered
  have hfollow : Following m p.world.db p.world.term.gen p.threads.length req q :=
    hq.invariant (Following m p.world.db p.world.term.gen p.threads.length req)
      (fun _ _ _ h hC hs => h.step hread hC hs) (following_arrive hphase hread hC hstep)
  obtain ⟨req', hthread⟩ := hanswered
  rcases hfollow.told with ⟨answer', hi, htold⟩ | ⟨op, k, hi, -⟩
  · rw [hi] at hthread
    cases hthread
    exact htold
  · rw [hi] at hthread
    cases hthread

open Note in

/-- A write, and a read that starts once it has returned. -/
theorem visible_note :
    ∃ p q : Calls Text Caller Nat, p.world.db = "new".toList ∧ p.world.term.gen = 1 ∧
      q.threads[1]? = some (.read path bob none, .ret (.ok (.content "new".toList 2))) ∧
      mount.Reports (fun _ => True) p.world.db p.world.term.gen (.read path bob none)
        (.ok (.content "new".toList 2)) := by
  have hrun : ((mount.service.runsIf Apart (Pool.idle { db := "old".toList })
      (whole 0 4 (.write path "new".toList alice))).bind fun p =>
        (mount.service.step p (.arrive (.read path bob none))).bind fun p' =>
          (mount.service.runsIf Apart p' (List.replicate 7 (.run 1 ()))).map fun q =>
            (p.world.db, p.world.term.gen, p.threads.length,
              Apart p (.arrive (.read path bob none)), (answers q)[1]?)) =
      some ("new".toList, 1, 1, true,
        some (.read path bob none, some (.ok (.content "new".toList 2)))) := by
    decide +kernel
  obtain ⟨p, hp, hrest⟩ := Option.bind_eq_some_iff.mp hrun
  obtain ⟨p', hstep, hrest⟩ := Option.bind_eq_some_iff.mp hrest
  obtain ⟨q, hq, heq⟩ := Option.map_eq_some_iff.mp hrest
  simp only [Prod.mk.injEq] at heq
  obtain ⟨hdb, hgen, hlength, hapart, hanswer⟩ := heq
  have hthread := answered_of_answers hanswer
  have hvisible := (visible_when_apart rfl (Service.reachUnder_of_runsIf hp)).1
    (.read path bob none) p' q (.ok (.content "new".toList 2)) rfl hapart hstep
    (Service.reachUnder_of_runsIf hq) ⟨_, hlength ▸ hthread⟩
  exact ⟨p, q, hdb, hgen, hthread, hvisible⟩

open Note in

/-- A reader misses and is told the old text; a write returns; the reader fills the cache;
and the next one is told the old text, of the new generation. Two writes that overlap raise
the generation once. -/
theorem stale_after_write :
    (mount.service.runs (Pool.idle { db := "old".toList })
      (whole 0 3 (.read path alice none) ++ whole 1 4 (.write path "new".toList alice) ++
        List.replicate 4 (.run 0 ()) ++ whole 2 3 (.read path bob none))).map
          (fun p => (p.world.db, p.world.term.gen, (answers p)[1]?, (answers p)[2]?)) =
      some ("new".toList, 1,
        some (.write path "new".toList alice, some (.ok (.node ((node "new".toList).stamped 1)))),
        some (.read path bob none, some (.ok (.content "old".toList 2)))) ∧
    (mount.service.runs (Pool.idle { db := "old".toList })
      (whole 0 2 (.write path "a".toList alice) ++ whole 1 4 (.write path "b".toList bob) ++
        List.replicate 2 (.run 0 ()))).map (fun p => (successes p, p.world.term.gen)) =
      some (2, 1) := by
  decide +kernel

end Later

end NoizuMcp.Vfs
