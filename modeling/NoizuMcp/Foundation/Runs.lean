import Mathlib.Data.List.Induction

/-!
# Runs of a machine that may stop

A machine takes an input in a state and either goes on, with an output, or stops for
good. A run is the outputs for a list of inputs. What every step preserves holds at the
end of every run (`run_invariant`); what a step preserves under a condition on the state
and the input holds at the end of every run whose steps meet it (`run_invariant_of_all`),
and if the condition is exact, only then in every state of the run (`forall_states_iff`).
Two machines that agree under a condition have the same runs under it (`All.congr`).
-/

set_option autoImplicit false

namespace NoizuMcp.Foundation.Runs

universe u v w

variable {σ : Type u} {α : Type v} {ω : Type w} {step : σ → α → Option (σ × ω)}
  {s t u : σ} {input : α} {inputs first second : List α} {outputs : List ω}

/-- The state after the inputs and the outputs on the way, unless the machine stops. -/
def run (step : σ → α → Option (σ × ω)) : σ → List α → Option (σ × List ω)
  | s, [] => some (s, [])
  | s, input :: rest =>
    (step s input).bind fun next =>
      (run step next.1 rest).map fun last => (last.1, next.2 :: last.2)

theorem run_cons_iff :
    run step s (input :: inputs) = some (t, outputs) ↔
      ∃ u output rest, step s input = some (u, output) ∧ run step u inputs = some (t, rest) ∧
        outputs = output :: rest := by
  simp only [run, Option.bind_eq_some_iff, Option.map_eq_some_iff, Prod.exists, Prod.mk.injEq]
  constructor
  · rintro ⟨u, output, hstep, t', rest, hrun, rfl, rfl⟩
    exact ⟨u, output, rest, hstep, hrun, rfl⟩
  · rintro ⟨u, output, rest, hstep, hrun, rfl⟩
    exact ⟨u, output, hstep, t, rest, hrun, rfl, rfl⟩

theorem run_append_iff :
    run step s (first ++ second) = some (t, outputs) ↔
      ∃ u before after, run step s first = some (u, before) ∧ run step u second = some (t, after) ∧
        outputs = before ++ after := by
  induction first generalizing s outputs with
  | nil =>
    constructor
    · intro h
      exact ⟨s, [], outputs, rfl, h, rfl⟩
    · rintro ⟨u, before, after, hfirst, hsecond, rfl⟩
      cases hfirst
      exact hsecond
  | cons _ _ ih =>
    simp only [List.cons_append, run_cons_iff, ih]
    constructor
    · rintro ⟨u, output, _, hstep, ⟨v, before, after, hfirst, hsecond, rfl⟩, rfl⟩
      exact ⟨v, output :: before, after, ⟨u, output, before, hstep, hfirst, rfl⟩, hsecond, rfl⟩
    · rintro ⟨v, _, after, ⟨u, output, before, hstep, hfirst, rfl⟩, hsecond, rfl⟩
      exact ⟨u, output, before ++ after, hstep, ⟨v, before, after, hfirst, hsecond, rfl⟩, rfl⟩

/-- Every step of the run from `s` meets the condition. -/
def All (step : σ → α → Option (σ × ω)) (C : σ → α → Prop) : σ → List α → Prop
  | _, [] => True
  | s, input :: rest => C s input ∧ ∀ next ∈ step s input, All step C next.1 rest

instance All.decidable {C : σ → α → Prop} [∀ s input, Decidable (C s input)] :
    ∀ s inputs, Decidable (All step C s inputs)
  | _, [] => .isTrue trivial
  | s, input :: rest =>
    have : DecidablePred fun next : σ × ω => All step C next.1 rest :=
      fun next => All.decidable next.1 rest
    have : Decidable (∀ next, next ∈ step s input → All step C next.1 rest) :=
      Option.decidableForallMem (step s input)
    inferInstanceAs (Decidable (C s input ∧ ∀ next ∈ step s input, All step C next.1 rest))

variable {C : σ → α → Prop}

/-- A condition on the inputs alone. -/
theorem All.of_mem (h : ∀ s, ∀ input ∈ inputs, C s input) : All step C s inputs := by
  induction inputs generalizing s with
  | nil => trivial
  | cons input _ ih =>
    refine ⟨h s input List.mem_cons_self, fun next _ => ih ?_⟩
    intro s input hinput
    exact h s input (List.mem_cons_of_mem _ hinput)

/-- What a step preserves under a condition holds at the end of a run that meets it. -/
theorem run_invariant_of_all (I : σ → Prop)
    (hstep : ∀ s input t output, I s → C s input → step s input = some (t, output) → I t) (hs : I s)
    (hall : All step C s inputs) (h : run step s inputs = some (t, outputs)) : I t := by
  induction inputs generalizing s outputs with
  | nil =>
    cases h
    exact hs
  | cons input _ ih =>
    obtain ⟨u, output, outputs', hfirst, hrest, rfl⟩ := run_cons_iff.mp h
    exact ih (hstep s input u output hs hall.1 hfirst) (hall.2 (u, output) hfirst) hrest

/-- Two machines whose steps agree under a condition have the same runs under it. -/
theorem All.congr {step' : σ → α → Option (σ × ω)}
    (hsame : ∀ s input, C s input → step s input = step' s input) (hall : All step C s inputs) :
    All step' C s inputs ∧ run step s inputs = run step' s inputs := by
  induction inputs generalizing s with
  | nil => exact ⟨trivial, rfl⟩
  | cons input rest ih =>
    have hfirst := hsame s input hall.1
    have hrest : ∀ next ∈ step' s input,
        All step' C next.1 rest ∧ run step next.1 rest = run step' next.1 rest :=
      fun next hnext => ih (hall.2 next (hfirst ▸ hnext))
    refine ⟨⟨hall.1, fun next hnext => (hrest next hnext).1⟩, ?_⟩
    simp only [run, hfirst]
    refine Option.bind_congr fun next hnext => ?_
    rw [(hrest next hnext).2]

/-- What every step preserves holds at the end of a run. -/
theorem run_invariant (I : σ → Prop)
    (hstep : ∀ s input t output, I s → step s input = some (t, output) → I t) (hs : I s)
    (h : run step s inputs = some (t, outputs)) : I t :=
  run_invariant_of_all (C := fun _ _ => True) I
    (fun s input t output hs _ => hstep s input t output hs) hs (.of_mem fun _ _ _ => trivial) h

/-- A property that a step of the run keeps just if it meets a condition holds in every
state along the run just if every step meets the condition. -/
theorem forall_states_iff_of_mem (P : σ → Prop)
    (hiff : ∀ s, ∀ input ∈ inputs, P s → ((∀ next ∈ step s input, P next.1) ↔ C s input))
    (hs : P s) :
    (∀ first rest t outputs, inputs = first ++ rest → run step s first = some (t, outputs) → P t) ↔
      All step C s inputs := by
  induction inputs generalizing s with
  | nil =>
    refine ⟨fun _ => trivial, fun _ first rest t outputs heq hrun => ?_⟩
    obtain ⟨rfl, rfl⟩ := List.append_eq_nil_iff.mp heq.symm
    cases hrun
    exact hs
  | cons input inputs ih =>
    have hinput := hiff s input List.mem_cons_self hs
    have hrest : ∀ s, ∀ later ∈ inputs, P s → ((∀ next ∈ step s later, P next.1) ↔ C s later) :=
      fun s later hlater => hiff s later (List.mem_cons_of_mem _ hlater)
    constructor
    · intro h
      have hnext : ∀ next ∈ step s input, P next.1 := by
        intro next hnext
        refine h [input] inputs next.1 [next.2] rfl (run_cons_iff.mpr ?_)
        exact ⟨next.1, next.2, [], hnext, rfl, rfl⟩
      refine ⟨hinput.mp hnext, fun next hstep => ?_⟩
      refine (ih hrest (hnext next hstep)).mp fun first rest t outputs heq hrun => ?_
      refine h (input :: first) rest t (next.2 :: outputs) (by rw [heq]; rfl) ?_
      exact run_cons_iff.mpr ⟨next.1, next.2, outputs, hstep, hrun, rfl⟩
    · rintro ⟨hmeets, hall⟩ first rest t outputs heq hrun
      cases first with
      | nil =>
        cases hrun
        exact hs
      | cons _ first =>
        obtain ⟨rfl, rfl⟩ := List.cons.inj heq
        obtain ⟨u, output, outputs', hstep, hlater, rfl⟩ := run_cons_iff.mp hrun
        have hu : P u := hinput.mpr hmeets (u, output) hstep
        exact (ih hrest hu).mpr (hall (u, output) hstep) first rest t outputs' rfl hlater

/-- A property that a step keeps just if it meets a condition holds in every state along
a run just if every step meets the condition. -/
theorem forall_states_iff (P : σ → Prop)
    (hiff : ∀ s input, P s → ((∀ next ∈ step s input, P next.1) ↔ C s input)) (hs : P s) :
    (∀ first rest t outputs, inputs = first ++ rest → run step s first = some (t, outputs) → P t) ↔
      All step C s inputs :=
  forall_states_iff_of_mem P (fun s input _ => hiff s input) hs

end NoizuMcp.Foundation.Runs
