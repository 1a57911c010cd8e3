import Mathlib.Data.List.Induction
import NoizuMcp.Foundation.Table
import NoizuMcp.Toolset.Context
import NoizuMcp.Toolset.Validator

/-!
# Composition

The passes of `Noizu.MCP.Toolset.Custom` after the static one. The layers of the context
and of the bases are folded, the validator is asked, unless this process has already had
its consent, and the winning ops of every tool that is kept are applied to its spec. What
comes out is the list of entries, and the executable specs and the provenance in maps
that are keyed by the wire name.

Versions are digests in the source. Here a digest is the data it is taken of, so two of
them are equal only if the data are.
-/

set_option autoImplicit false

namespace NoizuMcp.Toolset

open Foundation

/-- What a composition reads besides the toolset: the caller, the time, what the base
modules list, the governing providers, and the layers the host adds. -/
structure Request where
  auth : Option Principal := none
  now : Nat := 0
  surface : String → Option (List Spec)
  acl : Option Acl := none
  contextLayers : List Layer := []
  selection : Selection := .unresolved

/-- A composition fails with issues, or raises. -/
inductive Failure where
  | issues (issues : List Issue)
  | raised
  deriving DecidableEq

/-- The provenance of a tool: for each of its slots the layer that won it. -/
abbrev Provenance := List (Slot × Option LayerId × Int)

/-- `Behaviour.catalog_version/1`. -/
abbrev CatalogVersion := List (String × Term × Tool)

/-- What a change of the surface is noticed by. -/
def catalogVersion (specs : List Spec) : CatalogVersion :=
  specs.map fun spec => (spec.definition.name, spec.definition.inputSchema, spec.definition)

/-- `compose_version/4`. -/
structure Version where
  slug : String
  static : CatalogVersion
  fingerprints : List Layer
  stores : Option StoreVersions
  deriving DecidableEq

/-- What is made of one base tool. -/
structure Made where
  entry : Entry
  spec : Spec
  provenance : Provenance
  deriving DecidableEq

/-- The result of a composition. -/
structure Composed where
  entries : List Entry
  version : Version
  provenance : Table String Provenance
  specs : Table String Spec
  negotiations : List (String × NegotiationState)

/-- The validations this process remembers: slug, static version and context layers. -/
abbrev Memo := List (String × CatalogVersion × List Layer)

namespace Custom

/-! ## Materialization -/

/-- The layer is an access layer. -/
def isAcl : Option LayerId → Bool
  | some (.acl _) => true
  | _ => false

/-- The reason of the policy, where it denies the tool. -/
def withAclReason (entry : Entry) (pre : Spec) (aclOps : Winners) : Entry :=
  match aclOps with
  | [] => entry
  | (_, override) :: _ =>
    let preEntry := entryFor pre
    if (preEntry.visible = false ∨ preEntry.callable = false) ∧ preEntry.reason ≠ none then
      { entry with reason := preEntry.reason }
    else { entry with reason := override.layer.map Reason.layer }

/-- The reason of a negotiation, which goes over the policy's. -/
def withNegotiationReason (entry : Entry) (tool : String)
    (negotiations : List (String × NegotiationState)) : Entry :=
  match negotiations.lookup tool with
  | some state =>
    if state.missing = [] then entry
    else { entry with reason := some (.negotiationRequired state.missing) }
  | none => entry

/-- `merge_metadata_overrides/3`. -/
def mergeMetadata (spec : Spec) (tool : String)
    (negotiations : List (String × NegotiationState)) : Spec :=
  match negotiations.lookup tool with
  | some state =>
    if state.granted ∧ state.metadataOverrides ≠ [] then
      { spec with definition := { spec.definition with
          metaMap := some ((spec.definition.metaMap.getD []).merge state.metadataOverrides) } }
    else spec
  | none => spec

/-- The body of the reduction in `materialize/6`. -/
def makeTool (winners : Winners) (negotiations : List (String × NegotiationState)) (spec : Spec) :
    Except (List Issue) Made :=
  let name := spec.definition.name
  let ops := Merge.ofTool winners name
  let aclOps := ops.filter fun row => isAcl row.2.layer
  match Overrides.apply spec (Merge.opsOf winners name) with
  | .error issues => .error issues
  | .ok final =>
    match Overrides.apply spec ((Merge.opsOf winners name).diff (aclOps.map Prod.snd)) with
    | .error issues => .error issues
    | .ok pre =>
      let final := mergeMetadata final name negotiations
      let entry := withNegotiationReason (withAclReason (entryFor final) pre aclOps) name
        negotiations
      .ok ⟨entry, final, ops.map fun row => (row.1, row.2.layer, row.2.weight)⟩

/-- All tools, or the issues of those that fail. -/
def makeAll (winners : Winners) (negotiations : List (String × NegotiationState)) :
    List Spec → Except (List Issue) (List Made)
  | [] => .ok []
  | spec :: rest =>
    match makeTool winners negotiations spec, makeAll winners negotiations rest with
    | .ok made, .ok others => .ok (made :: others)
    | .ok _, .error issues => .error issues
    | .error issues, .ok _ => .error issues
    | .error issues, .error others => .error (issues ++ others)

/-- The name under which a made tool is listed. -/
def Made.name (made : Made) : String := made.entry.definition.name

/-- The maps of the result: a later tool replaces an earlier one of the same name. -/
def keyed {α : Type} (value : Made → α) (made : List Made) : Table String α :=
  made.foldl (fun table tool => table.insert (Made.name tool) (value tool)) ∅

/-- The entries of a composition, or every issue on the way. -/
def materialize (toolset : Custom) (filtered : List Spec) (winners : Winners)
    (layers : List Layer) (persisted : Persisted) : Except (List Issue) Composed :=
  match makeAll winners persisted.negotiations filtered with
  | .error issues => .error issues
  | .ok made => .ok {
      entries := made.map Made.entry
      version := ⟨toolset.slug, catalogVersion filtered, layers, persisted.versions⟩
      provenance := keyed Made.provenance made
      specs := keyed Made.spec made
      negotiations := persisted.negotiations }

/-! ## The passes -/

/-- A toolset that has passed with the same surface and layers is not checked again. -/
def validated (memo : Memo) (toolset : Custom) (baseSpecs : List Spec) (context : List Layer)
    (static : CatalogVersion) : Except (List Issue) Memo :=
  if (toolset.slug, static, context) ∈ memo then .ok memo
  else match Validator.compile toolset baseSpecs context with
    | [] => .ok ((toolset.slug, static, context) :: memo)
    | issues => .error issues

/-- `context_layers/5`; `none` if the access provider raises. -/
def contextLayers (toolset : Custom) (request : Request) (persisted : Persisted)
    (filtered : List Spec) : Option (List Layer) :=
  (Context.aclLayers filtered request.acl).map fun acl =>
    acl ++ persisted.layers ++ if toolset.immutable then [] else request.contextLayers

/-- `compose_passes/5`, with what the process remembers afterwards. -/
def composePasses (memo : Memo) (toolset : Custom) (request : Request) (baseSpecs : List Spec)
    (nested : List Layer) (persisted : Persisted) : Except Failure Composed × Memo :=
  let filtered := filterSpecs toolset.toSettings baseSpecs
  match contextLayers toolset request persisted filtered with
  | none => (.error .raised, memo)
  | some context =>
    let layers := context ++ (nested ++ [staticLayer toolset.toSettings])
    match Merge.fold layers with
    | .error issues => (.error (.issues issues), memo)
    | .ok winners =>
      match validated memo toolset baseSpecs context (catalogVersion filtered) with
      | .error issues => (.error (.issues issues), memo)
      | .ok memo =>
        match materialize toolset filtered winners layers persisted with
        | .error issues => (.error (.issues issues), memo)
        | .ok composed => (.ok composed, memo)

/-- The persisted pass of a request. -/
def persistedFor (toolset : Custom) (request : Request) : Persisted :=
  Context.persisted toolset.slug toolset.immutable request.auth request.now request.selection

/-- `run/3` where the cache of compositions, which is off by default, has no row. -/
def compose (memo : Memo) (toolset : Custom) (request : Request) :
    Except Failure Composed × Memo :=
  match expandBase request.surface toolset.base [toolset.slug] with
  | .error issues => (.error (.issues issues), memo)
  | .ok (baseSpecs, nested) =>
    composePasses memo toolset request baseSpecs nested (persistedFor toolset request)

/-! ## Resolution -/

/-- `%Effective{}`. -/
structure Effective where
  name : String
  entry : Entry
  spec : Spec
  provenance : Option Provenance
  version : Version
  deriving DecidableEq

/-- The errors of `resolve/4`. -/
inductive ResolveError where
  | invalidParams (message : String)
  | forbidden (message tool : String) (required missing : List Term) (negotiation : String)
      (metadata : TermMap)
  | internal (slug : String) (failure : Failure)
  | raised
  deriving DecidableEq

/-- The error for a name that is not served. -/
def unknownTool (name : String) : ResolveError := .invalidParams ("Unknown tool: " ++ name)

/-- `resolve/4` on a composition. -/
def resolveIn (composed : Composed) (name : String) : Except ResolveError Effective :=
  match composed.entries.find? fun entry => entry.definition.name == name with
  | none => .error (unknownTool name)
  | some entry =>
    if entry.callable then
      match composed.specs.lookup name with
      | some spec => .ok ⟨name, entry, spec, composed.provenance.lookup name, composed.version⟩
      | none => .error .raised
    else match entry.reason, composed.negotiations.lookup name with
      | some (.negotiationRequired missing), some state =>
        if missing = [] then .error (unknownTool name)
        else .error (.forbidden "tool requires scopes" name state.required missing state.id
          state.metadata)
      | _, _ => .error (unknownTool name)

/-- A name among the composed tools of the request. -/
def resolve (memo : Memo) (toolset : Custom) (request : Request) (name : String) :
    Except ResolveError Effective :=
  match (compose memo toolset request).1 with
  | .ok composed => resolveIn composed name
  | .error failure => .error (.internal toolset.slug failure)

/-! ## What a composition is made of -/

/-- The specs of the expanded base, and the layers of the nested toolsets. -/
def expanded (toolset : Custom) (request : Request) : List Spec × List Layer :=
  match expandBase request.surface toolset.base [toolset.slug] with
  | .ok expanded => expanded
  | .error _ => ([], [])

/-- The base tools that are kept. -/
def kept (toolset : Custom) (request : Request) : List Spec :=
  filterSpecs toolset.toSettings (expanded toolset request).1

/-- The layers of the context. -/
def context (toolset : Custom) (request : Request) : List Layer :=
  (contextLayers toolset request (persistedFor toolset request) (kept toolset request)).getD []

/-- All layers that are folded. -/
def layers (toolset : Custom) (request : Request) : List Layer :=
  context toolset request ++
    ((expanded toolset request).2 ++ [staticLayer toolset.toSettings])

variable {memo memo' : Memo} {toolset : Custom} {request : Request} {composed : Composed}
  {winners : Winners} {made : List Made}

/-- The stages of a composition that succeeds. -/
structure Passes (memo : Memo) (toolset : Custom) (request : Request) (composed : Composed)
    (memo' : Memo) (winners : Winners) (made : List Made) : Prop where
  expands : expandBase request.surface toolset.base [toolset.slug] =
    .ok (expanded toolset request)
  layered : contextLayers toolset request (persistedFor toolset request) (kept toolset request) =
    some (context toolset request)
  folded : Merge.fold (layers toolset request) = .ok winners
  checked : validated memo toolset (expanded toolset request).1 (context toolset request)
    (catalogVersion (kept toolset request)) = .ok memo'
  makes : makeAll winners (persistedFor toolset request).negotiations (kept toolset request) =
    .ok made
  materializes : materialize toolset (kept toolset request) winners (layers toolset request)
    (persistedFor toolset request) = .ok composed
  entries : composed.entries = made.map Made.entry
  specs : composed.specs = keyed Made.spec made
  provenance : composed.provenance = keyed Made.provenance made
  negotiations : composed.negotiations = (persistedFor toolset request).negotiations

variable {folded : List Layer} {persisted : Persisted} {baseSpecs : List Spec}

theorem materialize_eq_ok {filtered : List Spec}
    (h : materialize toolset filtered winners folded persisted = .ok composed) :
    ∃ made, makeAll winners persisted.negotiations filtered = .ok made ∧
      composed.entries = made.map Made.entry ∧ composed.specs = keyed Made.spec made ∧
      composed.provenance = keyed Made.provenance made ∧
      composed.negotiations = persisted.negotiations := by
  unfold materialize at h
  split at h
  case h_1 => cases h
  case h_2 made hmade =>
    cases h
    exact ⟨made, hmade, rfl, rfl, rfl, rfl⟩

theorem composePasses_eq_ok {nested : List Layer}
    (h : composePasses memo toolset request baseSpecs nested persisted = (.ok composed, memo')) :
    ∃ context winners,
      contextLayers toolset request persisted (filterSpecs toolset.toSettings baseSpecs) =
        some context ∧
      Merge.fold (context ++ (nested ++ [staticLayer toolset.toSettings])) = .ok winners ∧
      validated memo toolset baseSpecs context
        (catalogVersion (filterSpecs toolset.toSettings baseSpecs)) = .ok memo' ∧
      materialize toolset (filterSpecs toolset.toSettings baseSpecs) winners
        (context ++ (nested ++ [staticLayer toolset.toSettings])) persisted = .ok composed := by
  unfold composePasses at h
  dsimp only at h
  split at h
  case h_1 => cases h
  case h_2 context hcontext =>
    split at h
    case h_1 => cases h
    case h_2 winners hfold =>
      split at h
      case h_1 => cases h
      case h_2 hvalidated =>
        split at h
        case h_1 => cases h
        case h_2 hmaterialize =>
          cases h
          exact ⟨context, winners, hcontext, hfold, hvalidated, hmaterialize⟩

section Expanded

variable {baseSpecs : List Spec} {nested : List Layer}
  (hbase : expandBase request.surface toolset.base [toolset.slug] = .ok (baseSpecs, nested))

include hbase

theorem expanded_eq : expanded toolset request = (baseSpecs, nested) := by
  unfold expanded
  rw [hbase]

theorem kept_eq : kept toolset request = filterSpecs toolset.toSettings baseSpecs := by
  unfold kept
  rw [expanded_eq hbase]

theorem context_eq {layered : List Layer}
    (h : contextLayers toolset request (persistedFor toolset request)
      (filterSpecs toolset.toSettings baseSpecs) = some layered) :
    context toolset request = layered := by
  unfold context
  rw [kept_eq hbase, h]
  rfl

end Expanded

theorem compose_eq_ok (h : compose memo toolset request = (.ok composed, memo')) :
    ∃ winners made, Passes memo toolset request composed memo' winners made := by
  unfold compose at h
  split at h
  case h_1 => cases h
  case h_2 nested hbase =>
    have hexpanded := expanded_eq hbase
    obtain ⟨layered, winners, hcontext, hfold, hvalidated, hmaterialize⟩ := composePasses_eq_ok h
    have hlayered := context_eq hbase hcontext
    rw [← kept_eq hbase] at hcontext hvalidated hmaterialize
    obtain ⟨made, hmade, hentries, hspecs, hprovenance, hnegotiations⟩ :=
      materialize_eq_ok hmaterialize
    have hfolded : layers toolset request =
        layered ++ (nested ++ [staticLayer toolset.toSettings]) := by
      unfold layers
      rw [hlayered, hexpanded]
    rw [← hfolded] at hfold hmaterialize
    refine ⟨winners, made, ?_, ?_, hfold, ?_, hmade, hmaterialize, hentries, hspecs, hprovenance,
      hnegotiations⟩
    · rw [hexpanded]
      exact hbase
    · rw [hlayered]
      exact hcontext
    · rw [hlayered, hexpanded]
      exact hvalidated

/-- The validator has been asked, unless its consent is remembered. -/
theorem validated_eq_ok {static : CatalogVersion}
    (h : validated memo toolset baseSpecs folded static = .ok memo') :
    (toolset.slug, static, folded) ∈ memo ∨ Validator.compile toolset baseSpecs folded = [] := by
  unfold validated at h
  split at h
  case isTrue hremembered => exact .inl hremembered
  case isFalse =>
    split at h
    case h_1 hnone => exact .inr hnone
    case h_2 => cases h

/-! ## What is made of a tool -/

/-- The scopes that the negotiation of a tool still misses. -/
def missingOf (negotiations : List (String × NegotiationState)) (tool : String) : List Term :=
  match negotiations.lookup tool with
  | some state => state.missing
  | none => []

variable {folded : List Layer} {negotiations : List (String × NegotiationState)} {spec : Spec}
  {tool : Made} {specs : List Spec}

theorem makeAll_eq_ok (h : makeAll winners negotiations specs = .ok made) :
    List.Forall₂ (fun spec tool => makeTool winners negotiations spec = .ok tool) specs made := by
  induction specs generalizing made with
  | nil =>
    cases h
    exact .nil
  | cons _ _ ih =>
    unfold makeAll at h
    split at h
    case h_1 htool hothers =>
      cases h
      exact .cons htool (ih hothers)
    all_goals cases h

@[simp] theorem mergeMetadata_name (spec : Spec) (name : String) :
    (mergeMetadata spec name negotiations).definition.name = spec.definition.name := by
  unfold mergeMetadata
  split
  · split <;> rfl
  · rfl

@[simp] theorem mergeMetadata_hidden (spec : Spec) (name : String) :
    (mergeMetadata spec name negotiations).hidden = spec.hidden := by
  unfold mergeMetadata
  split
  · split <;> rfl
  · rfl

@[simp] theorem mergeMetadata_callable (spec : Spec) (name : String) :
    (mergeMetadata spec name negotiations).callable = spec.callable := by
  unfold mergeMetadata
  split
  · split <;> rfl
  · rfl

/-- An access reason is no negotiation. -/
theorem withAclReason_cases (entry : Entry) (pre : Spec) (aclOps : Winners) :
    ∃ reason, withAclReason entry pre aclOps = { entry with reason := reason } ∧
      (reason = entry.reason ∨ ∀ missing, reason ≠ some (.negotiationRequired missing)) := by
  unfold withAclReason
  split
  case h_1 => exact ⟨entry.reason, rfl, .inl rfl⟩
  case h_2 override rest =>
    dsimp only
    split
    case isTrue =>
      refine ⟨(entryFor pre).reason, rfl, .inr ?_⟩
      intro missing hreason
      unfold entryFor at hreason
      split at hreason <;> cases hreason
    case isFalse =>
      refine ⟨override.layer.map Reason.layer, rfl, .inr ?_⟩
      intro missing hreason
      obtain ⟨id, _, hid⟩ := Option.map_eq_some_iff.mp hreason
      cases hid

/-- How a made tool shows: what the layers say of it, and whether consent is missing. -/
structure Shows (folded : List Layer) (negotiations : List (String × NegotiationState))
    (spec : Spec) (tool : Made) : Prop where
  name : tool.entry.definition.name = Merge.wireName folded spec.definition.name
  visible : tool.entry.visible =
    Merge.flag folded spec.definition.name .setVisible (!spec.hidden)
  callable : tool.entry.callable =
    Merge.flag folded spec.definition.name .setCallable spec.callable
  gated : missingOf negotiations spec.definition.name ≠ [] →
    tool.entry.reason =
      some (.negotiationRequired (missingOf negotiations spec.definition.name))
  ungated : missingOf negotiations spec.definition.name = [] →
    ∀ missing, tool.entry.reason ≠ some (.negotiationRequired missing)

theorem withNegotiationReason_eq (entry : Entry) (name : String) :
    withNegotiationReason entry name negotiations =
      if missingOf negotiations name = [] then entry
      else { entry with reason := some (.negotiationRequired (missingOf negotiations name)) } := by
  unfold withNegotiationReason missingOf
  cases negotiations.lookup name with
  | none => rfl
  | some => rfl

theorem makeTool_shows (hfold : Merge.fold folded = .ok winners)
    (h : makeTool winners negotiations spec = .ok tool) :
    Shows folded negotiations spec tool := by
  unfold makeTool at h
  dsimp only at h
  split at h
  case h_1 => cases h
  case h_2 final hfinal =>
    split at h
    case h_1 => cases h
    case h_2 pre hpre =>
      cases h
      obtain ⟨hvisible, hcallable, hname⟩ := Merge.apply_opsOf hfold hfinal
      generalize (Merge.ofTool winners spec.definition.name).filter
        (fun row => isAcl row.2.layer) = aclOps
      obtain ⟨reason, hacl, hreason⟩ := withAclReason_cases
        (entryFor (mergeMetadata final spec.definition.name negotiations)) pre aclOps
      rw [hacl, withNegotiationReason_eq]
      constructor
      case name => split <;> simpa [entryFor] using hname
      case visible => split <;> simpa [entryFor] using hvisible
      case callable => split <;> simpa [entryFor] using hcallable
      case gated =>
        intro hmissing
        rw [if_neg hmissing]
      case ungated =>
        intro hmissing
        rw [if_pos hmissing]
        rcases hreason with hown | hother
        · -- the entry's own reason is that its spec is hidden
          intro missing hnegotiation
          rw [hown] at hnegotiation
          unfold entryFor at hnegotiation
          split at hnegotiation <;> cases hnegotiation
        · exact hother

theorem Passes.shows (h : Passes memo toolset request composed memo' winners made) :
    List.Forall₂ (Shows (layers toolset request) (persistedFor toolset request).negotiations)
      (kept toolset request) made :=
  (makeAll_eq_ok h.makes).imp fun _ _ htool => makeTool_shows h.folded htool

/-! ## Looking a name up -/

/-- Under a wire name the maps hold the last tool that has it. -/
theorem lookup_keyed {α : Type} (value : Made → α) (made : List Made) (name : String) :
    (keyed value made).lookup name =
      (made.reverse.find? fun tool => Made.name tool == name).map value := by
  induction made using List.reverseRecOn with
  | nil => rfl
  | append_singleton made tool ih =>
    have hkeyed : keyed value (made ++ [tool]) =
        (keyed value made).insert (Made.name tool) (value tool) := by
      simp [keyed]
    rw [hkeyed, Table.lookup_insert_ite, List.reverse_append, List.reverse_singleton,
      List.singleton_append, List.find?_cons]
    by_cases hname : name = Made.name tool
    · simp [hname]
    · have hother : (Made.name tool == name) = false := beq_false_of_ne (Ne.symm hname)
      rw [if_neg hname, ih, hother]

theorem find_entries (made : List Made) (name : String) :
    (made.map Made.entry).find? (fun entry => entry.definition.name == name) =
      (made.find? fun tool => Made.name tool == name).map Made.entry := by
  rw [List.find?_map]
  rfl

/-- The outcome of a resolution, by the first tool that has the name. -/
theorem Passes.resolve_first (h : Passes memo toolset request composed memo' winners made)
    {name : String} (hfirst : made.find? (fun tool => Made.name tool == name) = some tool) :
    (tool.entry.callable = true → ∃ last, made.reverse.find? (fun tool => Made.name tool == name) =
        some last ∧
      resolveIn composed name =
        .ok ⟨name, tool.entry, last.spec, some last.provenance, composed.version⟩) ∧
    (tool.entry.callable = false →
      (resolveIn composed name = .error (unknownTool name) ↔
        ∀ missing, tool.entry.reason = some (.negotiationRequired missing) → missing ≠ [] →
          composed.negotiations.lookup name = none)) := by
  have hentry : composed.entries.find? (fun entry => entry.definition.name == name) =
      some tool.entry := by
    rw [h.entries, find_entries, hfirst]
    rfl
  constructor
  · intro hcallable
    have hsome : (made.reverse.find? fun tool => Made.name tool == name).isSome = true := by
      have hname := List.find?_some hfirst
      rw [List.find?_isSome]
      exact ⟨tool, List.mem_reverse.mpr (List.mem_of_find?_eq_some hfirst), hname⟩
    obtain ⟨last, hlast⟩ := Option.isSome_iff_exists.mp hsome
    unfold resolveIn
    rw [hentry, h.specs, h.provenance, lookup_keyed, lookup_keyed, hlast]
    simp [hcallable]
  · intro hcallable
    unfold resolveIn
    rw [hentry]
    simp only [hcallable]
    cases hreason : tool.entry.reason with
    | none => simp
    | some reason =>
      cases reason with
      | hiddenBySpec => simp
      | layer => simp
      | negotiationRequired missing =>
        cases hstate : composed.negotiations.lookup name with
        | none => simp
        | some =>
          by_cases hmissing : missing = []
          · simp [hmissing]
          · simp [hmissing, unknownTool]

end Custom

/-! ## The cache of compositions -/

/-- The layers of a composition as `pre_version/6` sees them. -/
abbrev Shape := List (LayerId × Int)

/-- The key of the cache of compositions: the slug, the principal, and `pre_version/6`. -/
structure CacheKey where
  slug : String
  principal : Option Principal
  static : CatalogVersion
  nested : Shape
  acl : Option String
  persisted : Shape
  stores : Option StoreVersions
  deriving DecidableEq

/-- A composition by a process. The rows that the cache still holds for it depend on the
clock and on the writes of the stores. -/
structure Composition where
  process : Nat := 0
  toolset : Custom
  request : Request
  caching : Bool := false
  fresh : CacheKey → Bool := fun _ => true

/-- What the processes remember and what is cached. -/
structure Remembered where
  memos : Nat → Memo := fun _ => []
  cache : Table CacheKey Composed := ∅

namespace Custom

/-- A layer's id and weight. -/
def shape (layers : List Layer) : Shape := layers.map fun layer => (layer.id, layer.weight)

/-- `cache_key` in `run/3`. -/
def cacheKey (toolset : Custom) (request : Request) (baseSpecs : List Spec)
    (nested : List Layer) : CacheKey where
  slug := toolset.slug
  principal := request.auth
  static := catalogVersion (filterSpecs toolset.toSettings baseSpecs)
  nested := shape nested
  acl := request.acl.map Acl.provider
  persisted := if toolset.immutable then [] else shape (persistedFor toolset request).layers
  stores := (persistedFor toolset request).versions

end Custom

namespace Composition

open Custom

/-- The key under which the composition is cached. -/
def cacheKey (composition : Composition) : CacheKey :=
  Custom.cacheKey composition.toolset composition.request
    (expanded composition.toolset composition.request).1
    (expanded composition.toolset composition.request).2

/-- The row of the cache that the composition finds. -/
def cached (state : Remembered) (composition : Composition) : Option Composed :=
  if composition.caching ∧ composition.fresh composition.cacheKey then
    state.cache.lookup composition.cacheKey
  else none

/-- `run/3`: a row of the cache, or the passes with what this process remembers. -/
def perform (state : Remembered) (composition : Composition) :
    Except Failure Composed × Remembered :=
  match expandBase composition.request.surface composition.toolset.base
      [composition.toolset.slug] with
  | .error issues => (.error (.issues issues), state)
  | .ok (baseSpecs, nested) =>
    match composition.cached state with
    | some composed => (.ok composed, state)
    | none =>
      let passed := composePasses (state.memos composition.process) composition.toolset
        composition.request baseSpecs nested
        (persistedFor composition.toolset composition.request)
      let memos := Function.update state.memos composition.process passed.2
      match passed.1 with
      | .error failure => (.error failure, { state with memos := memos })
      | .ok composed =>
        (.ok composed, {
          memos := memos
          cache := if composition.caching then state.cache.insert composition.cacheKey composed
            else state.cache })

/-- A composition that is not a row of the cache comes from the passes. -/
theorem compose_of_perform {state : Remembered} {current : Composition} {composed : Composed}
    (h : (perform state current).1 = .ok composed) (hcache : cached state current = none) :
    ∃ memo', compose (state.memos current.process) current.toolset current.request =
      (.ok composed, memo') := by
  rw [perform] at h
  rw [compose]
  split at h
  case h_1 => cases h
  case h_2 hbase =>
    rw [hcache] at h
    dsimp only at h
    split at h
    case h_1 => cases h
    case h_2 hpassed =>
      cases h
      exact ⟨_, Prod.ext hpassed rfl⟩

end Composition

end NoizuMcp.Toolset
