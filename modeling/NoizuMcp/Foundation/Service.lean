import NoizuMcp.Foundation.Program

/-!
# Services: programs interleaved over a shared world

A service answers each arriving request with a program and runs any number of
them at once over one world, one atomic operation at a time. The scheduler picks
the program to run next and everything the environment may choose: the answers
of nondeterministic operations, the arrival of requests, moves of the world that
no request makes (the clock). The log keeps every operation with its answer and
the index of the request that issued it.

A run of the service is a list of actions, executable by `Service.runs`. The two
rules used on it are `Service.Reach.issued`, which carries the sequential
specification of a handler (`Prog.Spec`) to every interleaving, and
`Service.Reach.invariant`, the step rule for invariants of the whole pool.
-/

set_option autoImplicit false

namespace NoizuMcp.Foundation

/-- The requests in service, the world they share, and what happened so far. -/
structure Pool (Req Ans World Op : Type) (Res : Op → Type) where
  world : World
  threads : List (Req × Prog Op Res Ans)
  log : List (Nat × Event Op Res)

namespace Pool

variable {Req Ans World Op : Type} {Res : Op → Type}

/-- The trace of request `i`. -/
def own (p : Pool Req Ans World Op Res) (i : Nat) : List (Event Op Res) :=
  p.log.filterMap fun e => if e.1 = i then some e.2 else none

/-- A world with no request in service and an empty log. -/
def idle (w : World) : Pool Req Ans World Op Res := ⟨w, [], []⟩

variable {p : Pool Req Ans World Op Res} {i : Nat}

theorem mem_own {e : Event Op Res} : e ∈ p.own i ↔ (i, e) ∈ p.log := by
  simp only [own, List.mem_filterMap]
  constructor
  · rintro ⟨⟨j, e'⟩, hmem, heq⟩
    split at heq
    · cases heq
      rename_i h
      subst h
      exact hmem
    · cases heq
  · intro h
    exact ⟨(i, e), h, by simp⟩

/-- Request `i` has been answered with `a`. -/
def Answered (p : Pool Req Ans World Op Res) (i : Nat) (a : Ans) : Prop :=
  ∃ req, p.threads[i]? = some (req, .ret a)

/-- Request `i` is `req`, at whatever point of its program. -/
def Serves (p : Pool Req Ans World Op Res) (i : Nat) (req : Req) : Prop :=
  ∃ prog, p.threads[i]? = some (req, prog)

theorem Serves.unique {req req' : Req} (h : p.Serves i req) (h' : p.Serves i req') :
    req = req' := by
  obtain ⟨prog, hi⟩ := h
  obtain ⟨prog', hi'⟩ := h'
  rw [hi] at hi'
  cases hi'
  rfl

/-- After an arrival the pool serves what it served and the request that arrived. -/
theorem serves_arrive {arrived : Req} {prog : Prog Op Res Ans} {req : Req} :
    ({ p with threads := p.threads ++ [(arrived, prog)] } :
        Pool Req Ans World Op Res).Serves i req ↔
      p.Serves i req ∨ (i = p.threads.length ∧ req = arrived) := by
  simp only [Serves]
  rcases Nat.lt_trichotomy i p.threads.length with hlt | rfl | hgt
  · rw [List.getElem?_append_left hlt]
    simp [Nat.ne_of_lt hlt]
  · simp [eq_comm]
  · have hlength : (p.threads ++ [(arrived, prog)]).length ≤ i := by
      rw [List.length_append]
      exact hgt
    rw [List.getElem?_eq_none hlength, List.getElem?_eq_none (Nat.le_of_lt hgt)]
    simp [Nat.ne_of_gt hgt]

end Pool

/-- What a scheduler may do next: let a request arrive, run the next operation
of request `i`, or move the world. -/
inductive Action (Req Choice Move : Type) where
  | arrive (req : Req)
  | run (i : Nat) (choice : Choice)
  | move (m : Move)

/-- A service: its handlers, which requests may arrive, what an operation does
under a scheduler's choice, and the moves of the world itself. -/
structure Service (Req Ans World Choice Move Op : Type) (Res : Op → Type) where
  handler : Req → Prog Op Res Ans
  admits : Pool Req Ans World Op Res → Req → Bool
  exec : Pool Req Ans World Op Res → Nat → (op : Op) → Choice → Option (Res op × World)
  moves : Pool Req Ans World Op Res → Move → Option World

namespace Service

variable {Req Ans World Choice Move Op : Type} {Res : Op → Type}
  (S : Service Req Ans World Choice Move Op Res)

/-- One step of the service, or `none` when the action is not possible. -/
def step (p : Pool Req Ans World Op Res) :
    Action Req Choice Move → Option (Pool Req Ans World Op Res)
  | .arrive req =>
    if S.admits p req then some { p with threads := p.threads ++ [(req, S.handler req)] }
    else none
  | .run i choice =>
    match p.threads[i]? with
    | some (req, .call op k) =>
      (S.exec p i op choice).map fun out =>
        ⟨out.2, p.threads.set i (req, k out.1), p.log ++ [(i, ⟨op, out.1⟩)]⟩
    | _ => none
  | .move m => (S.moves p m).map fun w => { p with world := w }

/-- Run a schedule. -/
def runs (p : Pool Req Ans World Op Res) :
    List (Action Req Choice Move) → Option (Pool Req Ans World Op Res)
  | [] => some p
  | a :: rest => (S.step p a).bind fun q => runs q rest

/-- Run a schedule whose steps all pass a check on the state before them. -/
def runsIf (C : Pool Req Ans World Op Res → Action Req Choice Move → Bool)
    (p : Pool Req Ans World Op Res) :
    List (Action Req Choice Move) → Option (Pool Req Ans World Op Res)
  | [] => some p
  | a :: rest => if C p a then (S.step p a).bind fun q => runsIf C q rest else none

variable {S}
  {p q : Pool Req Ans World Op Res} {a : Action Req Choice Move}
  {C : Pool Req Ans World Op Res → Action Req Choice Move → Prop}
  {acts : List (Action Req Choice Move)}

/-- What one step can be. -/
theorem step_cases (h : S.step p a = some q) :
    (∃ req, a = .arrive req ∧ S.admits p req = true ∧
      q = { p with threads := p.threads ++ [(req, S.handler req)] }) ∨
    (∃ i choice req op k r w, a = .run i choice ∧ p.threads[i]? = some (req, .call op k) ∧
      S.exec p i op choice = some (r, w) ∧
      q = ⟨w, p.threads.set i (req, k r), p.log ++ [(i, ⟨op, r⟩)]⟩) ∨
    (∃ m w, a = .move m ∧ S.moves p m = some w ∧ q = { p with world := w }) := by
  cases a with simp only [step] at h
  | arrive req =>
    split at h
    · exact .inl ⟨req, rfl, ‹_›, (Option.some.inj h).symm⟩
    · cases h
  | run i choice =>
    split at h
    · rename_i req op k hthread
      obtain ⟨⟨r, w⟩, hexec, rfl⟩ := Option.map_eq_some_iff.mp h
      exact .inr (.inl ⟨i, choice, req, op, k, r, w, rfl, hthread, hexec, rfl⟩)
    · cases h
  | move m =>
    obtain ⟨w, hmove, rfl⟩ := Option.map_eq_some_iff.mp h
    exact .inr (.inr ⟨m, w, rfl, hmove, rfl⟩)

/-- A step leaves every request what it is. -/
theorem step_serves (h : S.step p a = some q) {i : Nat} {req : Req} (hs : p.Serves i req) :
    q.Serves i req := by
  rcases step_cases h with ⟨arrived, -, -, rfl⟩ | ⟨j, _, req', _, k, r, _, -, hthread, -, rfl⟩ |
    ⟨_, _, -, -, rfl⟩
  · exact Pool.serves_arrive.mpr (.inl hs)
  · obtain ⟨prog, hi⟩ := hs
    by_cases hij : j = i
    · subst hij
      rw [hi] at hthread
      cases hthread
      exact ⟨k r, List.getElem?_set_self (List.getElem?_eq_some_iff.mp hi).1⟩
    · exact ⟨prog, (List.getElem?_set_ne hij).trans hi⟩
  · exact hs

/-- A step adds at most one event to the log. -/
theorem step_log (h : S.step p a = some q) : q.log = p.log ∨ ∃ x, q.log = p.log ++ [x] := by
  rcases step_cases h with ⟨_, -, -, rfl⟩ | ⟨i, _, _, op, _, r, _, -, -, -, rfl⟩ |
    ⟨_, _, -, -, rfl⟩
  · exact .inl rfl
  · exact .inr ⟨(i, ⟨op, r⟩), rfl⟩
  · exact .inl rfl

variable (S)

/-- `q` is reached from `p` by steps that all meet the condition `C`. -/
def ReachUnder (C : Pool Req Ans World Op Res → Action Req Choice Move → Prop) :
    Pool Req Ans World Op Res → Pool Req Ans World Op Res → Prop :=
  Relation.ReflTransGen fun p q => ∃ a, C p a ∧ S.step p a = some q

/-- `q` is reached from `p` by some schedule. -/
abbrev Reach : Pool Req Ans World Op Res → Pool Req Ans World Op Res → Prop :=
  S.ReachUnder fun _ _ => True

variable {S}

theorem ReachUnder.reach (h : S.ReachUnder C p q) : S.Reach p q :=
  Relation.ReflTransGen.mono (fun _ _ ⟨a, _, hstep⟩ => ⟨a, trivial, hstep⟩) p q h

theorem ReachUnder.mono {C' : Pool Req Ans World Op Res → Action Req Choice Move → Prop}
    (h : S.ReachUnder C p q) (hC : ∀ p a, C p a → C' p a) : S.ReachUnder C' p q :=
  Relation.ReflTransGen.mono (fun p _ ⟨a, hstep⟩ => ⟨a, hC p a hstep.1, hstep.2⟩) p q h

theorem reach_of_runs (h : S.runs p acts = some q) : S.Reach p q := by
  induction acts generalizing p with
  | nil =>
    cases h
    exact .refl
  | cons a _ ih =>
    obtain ⟨mid, hstep, hrest⟩ := Option.bind_eq_some_iff.mp h
    exact .head ⟨a, trivial, hstep⟩ (ih hrest)

/-- What a run shows holds of a state that is reached. -/
theorem exists_of_runs {β : Type} {f : Pool Req Ans World Op Res → β}
    (acts : List (Action Req Choice Move)) (b : β) (h : (S.runs p acts).map f = some b) :
    ∃ q, S.Reach p q ∧ f q = b := by
  obtain ⟨q, hq, hobs⟩ := Option.map_eq_some_iff.mp h
  exact ⟨q, reach_of_runs hq, hobs⟩

theorem reachUnder_of_runsIf {C : Pool Req Ans World Op Res → Action Req Choice Move → Bool}
    (h : S.runsIf C p acts = some q) : S.ReachUnder (fun p a => C p a = true) p q := by
  induction acts generalizing p with
  | nil =>
    cases h
    exact .refl
  | cons a _ ih =>
    simp only [runsIf] at h
    split at h
    · obtain ⟨mid, hstep, hrest⟩ := Option.bind_eq_some_iff.mp h
      exact .head ⟨a, ‹_›, hstep⟩ (ih hrest)
    · cases h

/-- The step rule: an invariant that every kind of step keeps holds in every
state reached. -/
theorem ReachUnder.invariant (Inv : Pool Req Ans World Op Res → Prop)
    (hstep : ∀ p a q, Inv p → C p a → S.step p a = some q → Inv q) (h : S.ReachUnder C p q)
    (hp : Inv p) : Inv q := by
  induction h with
  | refl => exact hp
  | tail _ hlast ih =>
    obtain ⟨a, hC, hs⟩ := hlast
    exact hstep _ a _ ih hC hs

/-! ## From one handler to every interleaving -/

/-- The log names only requests that arrived, and each request stands where its
own trace leaves its handler. -/
structure Coherent (S : Service Req Ans World Choice Move Op Res)
    (p : Pool Req Ans World Op Res) : Prop where
  follows : ∀ i req prog, p.threads[i]? = some (req, prog) →
    (S.handler req).Follows (p.own i) prog
  arrived : ∀ e ∈ p.log, e.1 < p.threads.length

theorem coherent_idle (w : World) : Coherent S (Pool.idle w) :=
  ⟨fun _ _ _ h => by simp [Pool.idle] at h, fun _ h => by simp [Pool.idle] at h⟩

section

variable (w : World) (ts : List (Req × Prog Op Res Ans)) (log : List (Nat × Event Op Res))

include w ts log

theorem own_append_self (i : Nat) (e : Event Op Res) :
    (⟨w, ts, log ++ [(i, e)]⟩ : Pool Req Ans World Op Res).own i =
      (⟨w, ts, log⟩ : Pool Req Ans World Op Res).own i ++ [e] := by
  simp [Pool.own]

theorem own_append_ne {i j : Nat} (e : Event Op Res) (h : i ≠ j) :
    (⟨w, ts, log ++ [(i, e)]⟩ : Pool Req Ans World Op Res).own j =
      (⟨w, ts, log⟩ : Pool Req Ans World Op Res).own j := by
  simp [Pool.own, h]

end

theorem Coherent.own_eq_nil (h : Coherent S p) {i : Nat} (hi : p.threads.length ≤ i) :
    p.own i = [] := by
  rw [List.eq_nil_iff_forall_not_mem]
  intro e he
  have := h.arrived _ (Pool.mem_own.mp he)
  omega

theorem Coherent.step (h : Coherent S p) (hs : S.step p a = some q) : Coherent S q := by
  rcases step_cases hs with ⟨req, rfl, -, rfl⟩ |
    ⟨i, choice, req, op, k, r, w, rfl, hthread, -, rfl⟩ | ⟨m, w, rfl, -, rfl⟩
  · refine ⟨fun i req' prog hi => ?_, fun e he => ?_⟩
    · rcases Nat.lt_trichotomy i p.threads.length with hlt | heq | hgt
      · rw [List.getElem?_append_left hlt] at hi
        exact h.follows i req' prog hi
      · -- the request that just arrived has an empty trace
        subst heq
        simp only [List.getElem?_concat_length] at hi
        obtain ⟨rfl, rfl⟩ := hi
        show (S.handler req).Follows (p.own p.threads.length) _
        rw [h.own_eq_nil (Nat.le_refl _)]
        exact .nil
      · rw [List.getElem?_eq_none (by simp; omega)] at hi
        cases hi
    · have := h.arrived e he
      simp only [List.length_append]
      omega
  · have hlen : i < p.threads.length := (List.getElem?_eq_some_iff.mp hthread).1
    refine ⟨fun j req' prog hj => ?_, fun e he => ?_⟩
    · by_cases hij : i = j
      · subst hij
        rw [List.getElem?_set_self hlen] at hj
        cases hj
        rw [own_append_self]
        exact .snoc r (h.follows i req _ hthread)
      · rw [List.getElem?_set_ne hij] at hj
        rw [own_append_ne _ _ _ _ hij]
        exact h.follows j req' prog hj
    · rw [List.length_set]
      rcases List.mem_append.mp he with he | he
      · exact h.arrived e he
      · obtain rfl : e = (i, ⟨op, r⟩) := by simpa using he
        exact hlen
  · exact ⟨h.follows, h.arrived⟩

theorem Reach.coherent {w : World} (h : S.Reach (Pool.idle w) p) : Coherent S p :=
  h.invariant (Coherent S) (fun _ _ _ hp _ hs => hp.step hs) (coherent_idle w)

section Specified

variable {P : Req → List (Event Op Res) → Op → Prop} {Q : Req → List (Event Op Res) → Ans → Prop}
  {p : Pool Req Ans World Op Res} {req : Req} {i : Nat} {e : Event Op Res}

section

variable (h : Coherent S p) (hspec : ∀ req, (S.handler req).Spec (P req) (Q req) [])

include h hspec

/-- An operation about to run is issued under its condition. -/
theorem Coherent.next
    {op : Op} {k : Res op → Prog Op Res Ans} (hi : p.threads[i]? = some (req, .call op k)) :
    P req (p.own i) op :=
  ((hspec req).follows (h.follows i req _ hi)).1

/-- Every operation in the log was issued under its condition on the trace
before it. -/
theorem Coherent.issued (hi : p.Serves i req) {before after : List (Event Op Res)}
    (he : p.own i = before ++ e :: after) : P req before e.op := by
  obtain ⟨prog, hi⟩ := hi
  exact (hspec req).issued (h.follows i req prog hi) he

/-- An answered request meets its postcondition. -/
theorem Coherent.answered {a : Ans} (hi : p.threads[i]? = some (req, .ret a)) : Q req (p.own i) a :=
  (hspec req).follows (h.follows i req _ hi)

/-- An operation whose kind its own condition excludes from the trace before it
is issued at most once by a request. -/
theorem Coherent.unique {B : Op → Prop} (hB : ∀ req tr op, P req tr op → B op → ∀ e ∈ tr, ¬ B e.op)
    {e₁ e₂ : Event Op Res} (h₁ : (i, e₁) ∈ p.log) (h₂ : (i, e₂) ∈ p.log) (hB₁ : B e₁.op)
    (hB₂ : B e₂.op) : e₁ = e₂ := by
  have hlt := h.arrived _ h₁
  obtain ⟨req, hserves⟩ : ∃ req, p.Serves i req := ⟨_, _, List.getElem?_eq_getElem hlt⟩
  obtain ⟨before, after, hsplit⟩ := List.append_of_mem (Pool.mem_own.mpr h₁)
  have hmem : e₂ ∈ before ++ e₁ :: after := hsplit ▸ Pool.mem_own.mpr h₂
  rcases List.mem_append.mp hmem with hbefore | hcons
  · exact absurd hB₂ (hB _ _ _ (h.issued hspec hserves hsplit) hB₁ e₂ hbefore)
  · rcases List.mem_cons.mp hcons with rfl | hafter
    · rfl
    · obtain ⟨mid, rest, rfl⟩ := List.append_of_mem hafter
      have hsplit' : p.own i = (before ++ e₁ :: mid) ++ e₂ :: rest := by
        rw [hsplit]
        simp
      exact absurd hB₁ (hB _ _ _ (h.issued hspec hserves hsplit') hB₂ e₁ (by simp))

/-- Every logged operation was issued under its condition on earlier events of
the same request. -/
theorem Coherent.logged (he : (i, e) ∈ p.log) : ∃ req before, p.Serves i req ∧
      (∀ e' ∈ before, (i, e') ∈ p.log) ∧ P req before e.op := by
  obtain ⟨req, hserves⟩ : ∃ req, p.Serves i req := ⟨_, _, List.getElem?_eq_getElem (h.arrived _ he)⟩
  obtain ⟨before, after, hsplit⟩ := List.append_of_mem (Pool.mem_own.mpr he)
  refine ⟨req, before, hserves, fun e' he' => ?_, h.issued hspec hserves hsplit⟩
  exact Pool.mem_own.mp (hsplit ▸ List.mem_append_left _ he')

end

end Specified

end Service

end NoizuMcp.Foundation
