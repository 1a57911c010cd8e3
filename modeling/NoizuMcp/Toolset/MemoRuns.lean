import NoizuMcp.Foundation.Runs
import NoizuMcp.Toolset.Names

/-!
# Histories of compositions

A process remembers that the validator has accepted a toolset under the slug, the catalog
of the tools that are kept and the layers of the context. The ops, the filters and the base
tools that are dropped are not in this key, though the validator reads them. The cache of
whole compositions, which is shared between processes and off unless a host turns it on,
has a key that says still less, and a hit in it asks no validator.

A history is a list of compositions by any processes. If those of them that share a key
also share what the validator reads (`Alike`), no composition succeeds unless the validator
accepts its own toolset (`accepted_of_alike`).
-/

set_option autoImplicit false

namespace NoizuMcp.Toolset

open Foundation

/-- What the validator reads of a composition, the chain of the bases apart. -/
structure Judged where
  slug : String
  tools : List (String × List LayerOp)
  includes : Option (List String)
  excludes : List String
  base : List (String × Option (List Field))
  context : List Layer
  deriving DecidableEq

namespace Composition

open Custom

/-- The key under which the validator's consent is remembered. -/
def memoKey (composition : Composition) : String × CatalogVersion × List Layer :=
  (composition.toolset.slug, catalogVersion (kept composition.toolset composition.request),
    context composition.toolset composition.request)

/-- A composition as a step: the memory afterwards, and the outcome. -/
def step (state : Remembered) (composition : Composition) :
    Option (Remembered × Except Failure Composed) :=
  some ((composition.perform state).2, (composition.perform state).1)

/-- The validator accepts the toolset of the composition over its base and its context. -/
def Accepted (composition : Composition) : Prop :=
  Validator.compile composition.toolset (expanded composition.toolset composition.request).1
    (context composition.toolset composition.request) = []

instance (composition : Composition) : Decidable composition.Accepted :=
  inferInstanceAs (Decidable (_ = _))

/-- What the validator reads of this composition. -/
def judged (composition : Composition) : Judged where
  slug := composition.toolset.slug
  tools := composition.toolset.tools
  includes := composition.toolset.includes
  excludes := composition.toolset.excludes
  base := (expanded composition.toolset composition.request).1.map fun spec =>
    (spec.definition.name, spec.definition.inputFields)
  context := context composition.toolset composition.request

/-- Two compositions with one key show the validator the same. -/
def Alike (first second : Composition) : Prop :=
  first.memoKey = second.memoKey ∨
      (first.caching = true ∧ second.caching = true ∧ first.cacheKey = second.cacheKey) →
    first.judged = second.judged

/-- Along the history, what succeeds is accepted. -/
def Transparent (history : List Composition) : Prop :=
  ∀ before current after state outcomes, history = before ++ current :: after →
    Runs.run step {} before = some (state, outcomes) →
    ∀ composed, (perform state current).1 = .ok composed → current.Accepted

/-! ## What the validator reads -/

/-- A chain that expands has no cycle. -/
theorem cycleIssues_of_expandBase {surface : String → Option (List Spec)} {base : Base}
    {chain : List String} {result : List Spec × List Layer}
    (h : expandBase surface base chain = .ok result) : Validator.cycleIssues base chain = [] := by
  induction base generalizing chain result with
  | module => rfl
  | ref => rfl
  | custom _ _ ih =>
    rw [expandBase] at h
    rw [Validator.cycleIssues]
    split at h
    case isTrue => cases h
    case isFalse hfresh =>
      rw [if_neg hfresh]
      split at h
      case h_1 hbase => exact ih hbase
      case h_2 => cases h
  | unsupported => rfl

/-- The fields against which the ops of a tool are checked. -/
def fieldsOf (base : List (String × Option (List Field))) (name : String) :
    Option (Option (List Field)) :=
  (base.reverse.find? fun row => row.1 == name).map Prod.snd

theorem toolOpIssues_eq (settings : Settings) (specs : List Spec) :
    Validator.toolOpIssues settings specs = settings.tools.flatMap fun (name, ops) =>
      match fieldsOf (specs.map fun spec => (spec.definition.name, spec.definition.inputFields))
          name with
      | some fields => (Validator.overridesOf ops).flatMap
          (Validator.opIssues fields (Validator.overridesOf ops))
      | none => [] := by
  rw [Validator.toolOpIssues]
  congr 1
  funext row
  dsimp only [fieldsOf]
  rw [← List.map_reverse, List.find?_map]
  have hfind : (fun row' : String × Option (List Field) => row'.1 == row.1) ∘
      (fun spec : Spec => (spec.definition.name, spec.definition.inputFields)) =
      fun spec => spec.definition.name == row.1 := rfl
  rw [hfind]
  cases specs.reverse.find? fun spec => spec.definition.name == row.1 with
  | none => rfl
  | some => rfl

/-- The verdict on what the validator reads of a composition whose bases have no cycle. -/
def verdict (judged : Judged) : List Issue :=
  Validator.compile
    { slug := judged.slug, tools := judged.tools, includes := judged.includes,
      excludes := judged.excludes, base := .unsupported .nil }
    (judged.base.map fun row =>
      { module := "", function := "", arity := 0,
        definition := { name := row.1, inputFields := row.2 } })
    judged.context

theorem compile_eq_verdict {composition : Composition}
    (hcycle : Validator.cycleIssues composition.toolset.base [composition.toolset.slug] = []) :
    Validator.compile composition.toolset
      (expanded composition.toolset composition.request).1
      (context composition.toolset composition.request) = verdict composition.judged := by
  simp only [verdict, Validator.compile, judged, toolOpIssues_eq, List.map_map, hcycle]
  rfl

/-- Compositions that expand and show the validator the same are accepted alike. -/
theorem Accepted.of_judged {first second : Composition} (h : first.Accepted)
    (hfirst : Validator.cycleIssues first.toolset.base [first.toolset.slug] = [])
    (hsecond : Validator.cycleIssues second.toolset.base [second.toolset.slug] = [])
    (hjudged : first.judged = second.judged) : second.Accepted := by
  rw [Accepted, compile_eq_verdict hfirst] at h
  rw [Accepted, compile_eq_verdict hsecond, ← hjudged]
  exact h

/-! ## One composition -/

variable {state : Remembered} {current : Composition} {past : List Composition}

/-- What the passes add to the memory of the process is a consent of the validator. -/
theorem composePasses_memo {memo : Memo} {toolset : Custom} {request : Request}
    {baseSpecs : List Spec} {nested : List Layer}
    (hbase : expandBase request.surface toolset.base [toolset.slug] = .ok (baseSpecs, nested))
    {key : String × CatalogVersion × List Layer}
    (hmem : key ∈ (composePasses memo toolset request baseSpecs nested
      (persistedFor toolset request)).2) :
    key ∈ memo ∨
      key = (toolset.slug, catalogVersion (kept toolset request), context toolset request) ∧
        Validator.compile toolset (expanded toolset request).1 (context toolset request) = [] := by
  rw [composePasses] at hmem
  dsimp only at hmem
  split at hmem
  case h_1 => exact .inl hmem
  case h_2 hlayered =>
    rw [kept_eq hbase, context_eq hbase hlayered, expanded_eq hbase]
    split at hmem
    case h_1 => exact .inl hmem
    case h_2 =>
      split at hmem
      case h_1 => exact .inl hmem
      case h_2 memo' hvalidated =>
        -- whether or not the tools are made, the memory is that of the validation
        have hkey : key ∈ memo' := by split at hmem <;> exact hmem
        rw [validated] at hvalidated
        split at hvalidated
        case isTrue =>
          cases hvalidated
          exact .inl hkey
        case isFalse =>
          split at hvalidated
          case h_1 haccepted =>
            cases hvalidated
            rcases List.mem_cons.mp hkey with rfl | hold
            · exact .inr ⟨rfl, haccepted⟩
            · exact .inl hold
          case h_2 => cases hvalidated

/-- The bases of the composition expand. -/
def Expands (composition : Composition) : Prop :=
  expandBase composition.request.surface composition.toolset.base [composition.toolset.slug] =
    .ok (expanded composition.toolset composition.request)

/-- A composition of the past that the validator has accepted. -/
def Vouched (past : List Composition) (property : Composition → Prop) : Prop :=
  ∃ earlier ∈ past, property earlier ∧ earlier.Expands ∧ earlier.Accepted

/-- Every key of the memories and of the cache is that of an accepted composition. -/
structure Sound (past : List Composition) (state : Remembered) : Prop where
  memos : ∀ process, ∀ key ∈ state.memos process,
    Vouched past fun earlier => earlier.memoKey = key
  cache : ∀ key composed, state.cache.lookup key = some composed →
    Vouched past fun earlier => earlier.caching = true ∧ earlier.cacheKey = key

theorem Vouched.mono {property : Composition → Prop} (h : Vouched past property) :
    Vouched (past ++ [current]) property := by
  obtain ⟨earlier, hmem, hearlier⟩ := h
  exact ⟨earlier, List.mem_append_left _ hmem, hearlier⟩

theorem Vouched.last {property : Composition → Prop} (h : property current)
    (hexpands : current.Expands) (haccepted : current.Accepted) :
    Vouched (past ++ [current]) property :=
  ⟨current, List.mem_append_right _ (List.mem_singleton.mpr rfl), h, hexpands, haccepted⟩

/-- What an accepted composition of the past shows the validator is accepted again. -/
theorem Vouched.accepted {property : Composition → Prop} (h : Vouched past property)
    (hexpands : current.Expands)
    (hjudged : ∀ earlier ∈ past, property earlier → earlier.judged = current.judged) :
    current.Accepted := by
  obtain ⟨earlier, hmem, hproperty, hearlier, haccepted⟩ := h
  exact haccepted.of_judged (cycleIssues_of_expandBase hearlier)
    (cycleIssues_of_expandBase hexpands) (hjudged earlier hmem hproperty)

/-- A composition that succeeds is accepted, if it shows the validator the same as all
earlier ones with a key of its own; and the keys stay those of accepted compositions. -/
theorem perform_sound (hsound : Sound past state)
    (halike : ∀ earlier ∈ past, Alike earlier current) :
    Sound (past ++ [current]) (perform state current).2 ∧
      ∀ composed, (perform state current).1 = .ok composed → current.Accepted := by
  have hkept : Sound (past ++ [current]) state :=
    ⟨fun process key hkey => (hsound.memos process key hkey).mono,
      fun key composed hrow => (hsound.cache key composed hrow).mono⟩
  rw [perform]
  split
  case h_1 => exact ⟨hkept, fun composed h => by cases h⟩
  case h_2 baseSpecs nested hbase =>
    have hexpands : current.Expands := by
      rw [Expands, expanded_eq hbase]
      exact hbase
    split
    case h_1 hcached =>
      -- a row of the cache: an accepted composition has its key
      refine ⟨hkept, fun _ _ => ?_⟩
      rw [cached] at hcached
      split at hcached
      case isFalse => cases hcached
      case isTrue hcaching =>
        apply (hsound.cache _ _ hcached).accepted hexpands
        rintro earlier hmem ⟨hearlier, hkey⟩
        exact halike earlier hmem (.inr ⟨hearlier, hcaching.1, hkey⟩)
    case h_2 =>
      dsimp only
      -- what this process remembers afterwards
      have hmemos : ∀ process, ∀ key ∈ Function.update state.memos current.process
          (composePasses (state.memos current.process) current.toolset current.request baseSpecs
            nested (persistedFor current.toolset current.request)).2 process,
          Vouched (past ++ [current]) fun earlier => earlier.memoKey = key := by
        intro process key hkey
        by_cases hprocess : process = current.process
        · subst hprocess
          rw [Function.update_self] at hkey
          rcases composePasses_memo hbase hkey with hold | ⟨rfl, haccepted⟩
          · exact hkept.memos _ key hold
          · exact Vouched.last rfl hexpands haccepted
        · rw [Function.update_of_ne hprocess] at hkey
          exact hkept.memos process key hkey
      split
      case h_1 => exact ⟨⟨hmemos, hkept.cache⟩, fun composed h => by cases h⟩
      case h_2 hpassed =>
        have haccepted : current.Accepted := by
          obtain ⟨layered, winners, hlayered, _, hvalidated, _⟩ :=
            composePasses_eq_ok (Prod.ext hpassed rfl)
          rw [← kept_eq hbase, ← context_eq hbase hlayered] at hvalidated
          rcases validated_eq_ok hvalidated with hremembered | hasked
          · apply (hsound.memos _ _ hremembered).accepted hexpands
            intro earlier hmem hkey
            exact halike earlier hmem (.inl hkey)
          · rw [Accepted, expanded_eq hbase]
            exact hasked
        refine ⟨⟨hmemos, ?_⟩, fun _ _ => haccepted⟩
        intro key row hrow
        split at hrow
        case isFalse => exact hkept.cache key row hrow
        case isTrue hcaching =>
          rw [Table.lookup_insert_ite] at hrow
          split at hrow
          case isTrue hkey => exact Vouched.last ⟨hcaching, hkey.symm⟩ hexpands haccepted
          case isFalse => exact hkept.cache key row hrow

/-! ## Histories -/

/-- Along a history of compositions that are alike, the keys are those of accepted ones. -/
theorem run_sound {before : List Composition} {outcomes : List (Except Failure Composed)}
    (halike : before.Pairwise Alike) (hrun : Runs.run step {} before = some (state, outcomes)) :
    Sound before state := by
  induction before using List.reverseRecOn generalizing state outcomes with
  | nil =>
    cases hrun
    constructor
    · intro process key hkey
      cases hkey
    · intro key composed hrow
      simp at hrow
  | append_singleton _ current ih =>
    obtain ⟨middle, first, last, hbefore, hlast, -⟩ := Runs.run_append_iff.mp hrun
    obtain ⟨hbefore', -, hcurrent⟩ := List.pairwise_append.mp halike
    obtain ⟨next, outcome, rest, hstep, hnil, -⟩ := Runs.run_cons_iff.mp hlast
    cases hstep
    cases hnil
    apply (perform_sound (ih hbefore' hbefore) ?_).1
    intro earlier hmem
    exact hcurrent earlier hmem current (List.mem_singleton.mpr rfl)

/-- No composition succeeds unless the validator accepts its own toolset, if those that share
a key show it the same. -/
theorem accepted_of_alike (history : List Composition) (h : history.Pairwise Alike) :
    Transparent history := by
  intro before current after state outcomes hsplit hrun composed hok
  rw [hsplit] at h
  obtain ⟨hbefore, -, hcurrent⟩ := List.pairwise_append.mp h
  apply (perform_sound (run_sound hbefore hrun) ?_).2 composed hok
  intro earlier hmem
  exact hcurrent earlier hmem current List.mem_cons_self

end Composition

namespace Sample

/-- A process composes the toolset that renames a tool. -/
def loading : Composition where
  toolset := renamed
  request := visits

/-- Two toolsets of one slug. The second excludes a tool that its base does not have. -/
def careful : Composition where
  toolset := { slug := "files", base := .module "Files" }
  request := visits

def mistaken : Composition where
  toolset := { slug := "files", base := .module "Files", excludes := ["shut"] }
  request := visits

end Sample

namespace Composition

/-- The second time, the process only remembers the consent. -/
theorem accepted_of_alike_loading :
    ∃ state outcomes composed, Runs.run step {} [Sample.loading] = some (state, outcomes) ∧
      Sample.loading.memoKey ∈ state.memos 0 ∧
      (perform state Sample.loading).1 = .ok composed ∧ Sample.loading.Accepted := by
  have halike : [Sample.loading, Sample.loading].Pairwise Alike := by simp [Alike]
  have hremembered : Sample.loading.memoKey ∈ (perform {} Sample.loading).2.memos 0 := by
    decide +kernel
  have hok : (perform (perform {} Sample.loading).2 Sample.loading).1.toOption.isSome = true := by
    decide +kernel
  cases hagain : (perform (perform {} Sample.loading).2 Sample.loading).1 with
  | error =>
    rw [hagain] at hok
    cases hok
  | ok composed =>
    refine ⟨_, _, composed, rfl, hremembered, hagain, ?_⟩
    exact accepted_of_alike _ halike [Sample.loading] Sample.loading [] _ _ rfl rfl composed hagain

/-- The consent for the first toolset lets the second pass, which the validator rejects. -/
theorem rejected_toolset_composed : ¬ Transparent [Sample.careful, Sample.mistaken] := by
  intro htransparent
  have hok : (perform (perform {} Sample.careful).2 Sample.mistaken).1.toOption.isSome = true := by
    decide +kernel
  cases hcomposed : (perform (perform {} Sample.careful).2 Sample.mistaken).1 with
  | error =>
    rw [hcomposed] at hok
    cases hok
  | ok composed =>
    have haccepted : Sample.mistaken.Accepted :=
      htransparent [Sample.careful] Sample.mistaken [] _ _ rfl rfl composed hcomposed
    exact absurd haccepted (by decide +kernel)

end Composition

end NoizuMcp.Toolset
