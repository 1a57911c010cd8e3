import NoizuMcp.Toolset.Access

/-!
# Wire names

A composition lists its tools in order, and keeps their specs and provenance in maps by
wire name. That a resolved name means the tool that was listed under it rests on the wire
names being distinct, which the validator is to check. It checks the names that come of
the static layer and the context layers. The pipeline folds the layers of nested bases as
well, so a rename in a nested base escapes the check; so do two base tools of one name,
which the validator counts once, and a toolset whose slug, base and context layers this
process has validated before with other ops.
-/

set_option autoImplicit false

namespace NoizuMcp.Toolset

/-! ## Winners by slot -/

namespace Merge

variable {layers others : List Layer} {slot : Slot} {winners : Winners} {issues : List Issue}

theorem fold_error_ne (h : fold layers = .error issues) : issues ≠ [] := by
  unfold fold at h
  split at h
  · cases h
  case h_2 hne =>
    cases h
    exact hne

/-- Layers with the same voices on a slot, in whatever order, have the same winner. -/
theorem winner_perm (h : (voices layers slot).Perm (voices others slot))
    (hsettled : ∀ weight, Foundation.Weighing.resolve (voices layers slot) ≠ .conflict weight) :
    winner layers slot = winner others slot := by
  unfold winner
  cases hresolve : Foundation.Weighing.resolve (voices layers slot) with
  | winner => rw [Foundation.Weighing.resolve_winner_perm h hresolve]
  | empty => rw [Foundation.Weighing.resolve_empty_perm h hresolve]
  | conflict weight => exact absurd hresolve (hsettled weight)

end Merge

/-! ## What the validator grants -/

namespace Validator

variable {toolset : Custom} {specs : List Spec} {context : List Layer} {winners : Winners}
  {layers : List Layer}

theorem effectiveName_eq (h : Merge.fold layers = .ok winners) (name : String) :
    effectiveName winners name = Merge.wireName layers name := by
  unfold effectiveName Merge.wireName
  rw [Merge.lookup_winners h]
  cases Merge.winner layers ⟨.str name, .setName, none⟩ <;> rfl

theorem nodup_of_no_collision {effective : List (String × String)}
    (h : collisionIssues effective = []) : (effective.map Prod.snd).Nodup := by
  rw [List.nodup_iff_count_le_one]
  intro wire
  by_contra hmany
  have hmem : wire ∈ effective.map Prod.snd := List.count_pos_iff.mp (by omega)
  have hnone := List.map_eq_nil_iff.mp h
  rw [List.filter_eq_nil_iff] at hnone
  exact hnone wire (List.mem_dedup.mpr hmem) (by simpa using hmany)

/-- A toolset without issues has distinct names under its static and context layers. -/
theorem compile_eq_nil (h : compile toolset specs context = []) {first second : Spec}
    (hfirst : first ∈ Custom.filterSpecs toolset.toSettings specs)
    (hsecond : second ∈ Custom.filterSpecs toolset.toSettings specs)
    (hsame : Merge.wireName (Custom.staticLayer toolset.toSettings :: context)
        first.definition.name =
      Merge.wireName (Custom.staticLayer toolset.toSettings :: context) second.definition.name) :
    first.definition.name = second.definition.name := by
  unfold compile at h
  cases hfold : Merge.fold (Custom.staticLayer toolset.toSettings :: context) with rw [hfold] at h
  | error =>
    simp only [List.append_eq_nil_iff] at h
    exact absurd h.1.1.1.1 (Merge.fold_error_ne hfold)
  | ok winners =>
    simp only [List.append_eq_nil_iff, nameIssues] at h
    have hnodup := nodup_of_no_collision h.2.2
    have hmem : ∀ spec ∈ Custom.filterSpecs toolset.toSettings specs,
        (spec.definition.name, effectiveName winners spec.definition.name) ∈
          effectiveNames toolset.toSettings (specs.map fun spec => spec.definition.name)
            winners := by
      intro spec hspec
      obtain ⟨hin, hkeeps⟩ := List.mem_filter.mp hspec
      exact List.mem_map.mpr ⟨_, List.mem_filter.mpr
        ⟨List.mem_dedup.mpr (List.mem_map.mpr ⟨spec, hin, rfl⟩), hkeeps⟩, rfl⟩
    have heq := List.inj_on_of_nodup_map hnodup (hmem first hfirst) (hmem second hsecond)
      (by rw [effectiveName_eq hfold, effectiveName_eq hfold, hsame])
    exact congrArg Prod.fst heq

end Validator

/-! ## The names of a composition -/

namespace Custom

variable {memo memo' : Memo} {toolset : Custom} {request : Request} {composed : Composed}
  {winners : Winners} {made : List Made} {tool : Made}

/-- The layers that the validator folds. -/
def checkedLayers (toolset : Custom) (request : Request) : List Layer :=
  staticLayer toolset.toSettings :: context toolset request

/-- The wire name under which a tool is listed. -/
def listedName (toolset : Custom) (request : Request) (spec : Spec) : String :=
  Merge.wireName (layers toolset request) spec.definition.name

/-- The wire name that the validator takes the tool to have. -/
def checkedName (toolset : Custom) (request : Request) (spec : Spec) : String :=
  Merge.wireName (checkedLayers toolset request) spec.definition.name

/-- Nothing escapes the check of the names: the base lists no name twice, a tool whose
name a nested base changes gets no name that another tool has, and if the validation is
only remembered, the names it would have checked are distinct. -/
structure NamesHold (memo : Memo) (toolset : Custom) (request : Request) : Prop where
  base : ((kept toolset request).map fun spec => spec.definition.name).Nodup
  nested : ∀ spec ∈ kept toolset request,
    listedName toolset request spec ≠ checkedName toolset request spec →
    ∀ other ∈ kept toolset request,
      listedName toolset request other = listedName toolset request spec →
      other.definition.name = spec.definition.name
  remembered : (toolset.slug, catalogVersion (kept toolset request), context toolset request) ∈
      memo →
    ∀ spec ∈ kept toolset request, ∀ other ∈ kept toolset request,
      listedName toolset request spec = checkedName toolset request spec →
      listedName toolset request other = checkedName toolset request other →
      checkedName toolset request spec = checkedName toolset request other →
      spec.definition.name = other.definition.name

theorem Passes.nodup_iff (h : Passes memo toolset request composed memo' winners made) :
    ((kept toolset request).map (listedName toolset request)).Nodup ↔
      NamesHold memo toolset request := by
  constructor
  · intro hnodup
    have hinj : ∀ spec ∈ kept toolset request, ∀ other ∈ kept toolset request,
        listedName toolset request spec = listedName toolset request other → spec = other :=
      fun spec hspec other hother => List.inj_on_of_nodup_map hnodup hspec hother
    refine ⟨?_, ?_, ?_⟩
    · apply List.Nodup.of_map (Merge.wireName (layers toolset request))
      rw [List.map_map]
      exact hnodup
    · intro spec hspec _ other hother hsame
      rw [hinj other hother spec hspec hsame]
    · intro _ spec hspec other hother hunmoved hstays hsame
      rw [hinj spec hspec other hother (by rw [hunmoved, hstays, hsame])]
  · intro hnames
    apply List.Nodup.map_on _ (List.Nodup.of_map _ hnames.base)
    intro spec hspec other hother hsame
    apply List.inj_on_of_nodup_map hnames.base hspec hother
    -- a tool that a nested base has renamed is alone with its name
    by_cases hmoved : listedName toolset request spec = checkedName toolset request spec
    case neg => exact (hnames.nested spec hspec hmoved other hother hsame.symm).symm
    by_cases hother' : listedName toolset request other = checkedName toolset request other
    case neg => exact hnames.nested other hother hother' spec hspec hsame
    have hchecked : checkedName toolset request spec = checkedName toolset request other := by
      rw [← hmoved, ← hother', hsame]
    rcases validated_eq_ok h.checked with hremembered | hcompile
    · exact hnames.remembered hremembered spec hspec other hother hmoved hother' hchecked
    · exact Validator.compile_eq_nil hcompile hspec hother hchecked

/-! ## What a name resolves to -/

/-- Entry, spec and provenance are what one base tool comes to. -/
def MadeOf (toolset : Custom) (request : Request) (spec : Spec) (effective : Effective) : Prop :=
  ∃ winners provenance, Merge.fold (layers toolset request) = .ok winners ∧
    makeTool winners (persistedFor toolset request).negotiations spec =
      .ok ⟨effective.entry, effective.spec, provenance⟩ ∧
    effective.provenance = some provenance

theorem shows_names {folded : List Layer} {negotiations : List (String × NegotiationState)}
    {specs : List Spec} (h : List.Forall₂ (Shows folded negotiations) specs made) :
    made.map Made.name = specs.map fun spec => Merge.wireName folded spec.definition.name := by
  induction h with
  | nil => rfl
  | cons hfirst _ ih =>
    rw [List.map_cons, ih]
    exact congrArg (· :: _) hfirst.name

theorem find_named :
    ∀ {made : List Made}, (made.map Made.name).Nodup → tool ∈ made →
      made.find? (fun other => Made.name other == Made.name tool) = some tool
  | [], _, hmem => by cases hmem
  | first :: rest, hnodup, hmem => by
    obtain ⟨hfresh, hrest⟩ := List.nodup_cons.mp hnodup
    rcases List.mem_cons.mp hmem with rfl | htail
    · rw [List.find?_cons_of_pos (by simp)]
    · have hne : Made.name first ≠ Made.name tool := by
        intro heq
        exact hfresh (List.mem_map.mpr ⟨tool, htail, heq.symm⟩)
      rw [List.find?_cons_of_neg (by simpa using hne)]
      exact find_named hrest htail

/-- Under distinct names a callable tool resolves to itself. -/
theorem Passes.resolve_listed (h : Passes memo toolset request composed memo' winners made)
    (hnodup : (made.map Made.name).Nodup) (hmem : tool ∈ made)
    (hcallable : tool.entry.callable = true) :
    resolveIn composed (Made.name tool) =
      .ok ⟨Made.name tool, tool.entry, tool.spec, some tool.provenance, composed.version⟩ := by
  obtain ⟨last, hlast, hresolve⟩ := (h.resolve_first (find_named hnodup hmem)).1 hcallable
  have hreverse : (made.reverse.map Made.name).Nodup := by
    rw [List.map_reverse]
    exact List.nodup_reverse.mpr hnodup
  rw [find_named hreverse (List.mem_reverse.mpr hmem)] at hlast
  cases hlast
  exact hresolve

/-- Only a listed tool that is callable resolves. -/
theorem Passes.resolve_eq_ok (h : Passes memo toolset request composed memo' winners made)
    {name : String} {effective : Effective} (hresolve : resolveIn composed name = .ok effective) :
    ∃ tool ∈ made, Made.name tool = name ∧ tool.entry.callable = true := by
  unfold resolveIn at hresolve
  split at hresolve
  case h_1 => cases hresolve
  case h_2 hentry =>
    rw [h.entries, find_entries] at hentry
    obtain ⟨tool, htool, rfl⟩ := Option.map_eq_some_iff.mp hentry
    have hname := List.find?_some htool
    refine ⟨tool, List.mem_of_find?_eq_some htool, by simpa using hname, ?_⟩
    by_contra hrefused
    rw [if_neg hrefused] at hresolve
    split at hresolve
    · split at hresolve <;> cases hresolve
    · cases hresolve

/-- What is resolved is what was listed: the wire names are distinct, a callable entry
resolves to itself, and whatever a name resolves to is, in all its parts, what the one base
tool of that name comes to. This holds if, and only if, nothing escapes the check of the
names. -/
theorem listed_resolved_iff {state : Remembered} {process : Nat} {caching : Bool}
    {fresh : CacheKey → Bool}
    (hperform : (Composition.perform state ⟨process, toolset, request, caching, fresh⟩).1 =
      .ok composed)
    (hcache : Composition.cached state ⟨process, toolset, request, caching, fresh⟩ = none) :
    ((composed.entries.map fun entry => entry.definition.name).Nodup ∧
      (∀ entry ∈ composed.entries, entry.callable = true →
        ∃ effective, resolveIn composed entry.definition.name = .ok effective ∧
          effective.entry = entry) ∧
      ∀ name effective, resolveIn composed name = .ok effective →
        ∃ spec ∈ kept toolset request, listedName toolset request spec = name ∧
          MadeOf toolset request spec effective ∧
          ∀ other ∈ kept toolset request, listedName toolset request other = name →
            other = spec) ↔
      NamesHold (state.memos process) toolset request := by
  obtain ⟨memo', h⟩ := Composition.compose_of_perform hperform hcache
  obtain ⟨winners, made, hpasses⟩ := compose_eq_ok h
  have hshows := hpasses.shows
  have hnames : made.map Made.name = (kept toolset request).map (listedName toolset request) :=
    shows_names hshows
  have hentries : (composed.entries.map fun entry => entry.definition.name) =
      made.map Made.name := by
    rw [hpasses.entries, List.map_map]
    rfl
  rw [← hpasses.nodup_iff, hentries, ← hnames]
  constructor
  · intro hlisted
    exact hlisted.1
  · intro hnodup
    refine ⟨hnodup, ?_, ?_⟩
    · intro entry hentry hcallable
      rw [hpasses.entries] at hentry
      obtain ⟨tool, htool, rfl⟩ := List.mem_map.mp hentry
      exact ⟨_, hpasses.resolve_listed hnodup htool hcallable, rfl⟩
    · intro name effective hresolve
      obtain ⟨tool, htool, rfl, hcallable⟩ := hpasses.resolve_eq_ok hresolve
      rw [hpasses.resolve_listed hnodup htool hcallable] at hresolve
      cases hresolve
      -- the tool was made of the spec in its place
      have hmade := makeAll_eq_ok hpasses.makes
      rw [← List.map_snd_zip hmade.length_eq.ge] at htool
      obtain ⟨⟨spec, tool⟩, hzip, rfl⟩ := List.mem_map.mp htool
      have hspec := (List.of_mem_zip hzip).1
      have hname : Made.name tool = listedName toolset request spec :=
        (List.forall₂_zip hshows hzip).name
      refine ⟨spec, hspec, hname.symm,
        ⟨winners, tool.provenance, hpasses.folded, List.forall₂_zip hmade hzip, rfl⟩, ?_⟩
      intro other hother hsame
      rw [hnames] at hnodup
      exact List.inj_on_of_nodup_map hnodup hother hspec (hsame.trans hname)

/-! ## Names that the check reaches -/

/-- The validator sees the name of a tool that no nested base renames. -/
theorem Passes.unmoved (h : Passes memo toolset request composed memo' winners made) {spec : Spec}
    (hsilent : ∀ override ∈ Merge.spoken (expanded toolset request).2,
      Merge.slotFor override ≠ ⟨.str spec.definition.name, .setName, none⟩) :
    listedName toolset request spec = checkedName toolset request spec := by
  have hnone : Merge.voices (expanded toolset request).2
      ⟨.str spec.definition.name, .setName, none⟩ = [] := by
    rw [List.eq_nil_iff_forall_not_mem]
    intro speaks hspeaks
    obtain ⟨override, hspoken, hslot, _⟩ := Merge.mem_voices.mp hspeaks
    exact hsilent override hspoken hslot
  have hperm : (Merge.voices (layers toolset request)
      ⟨.str spec.definition.name, .setName, none⟩).Perm
      (Merge.voices (checkedLayers toolset request)
        ⟨.str spec.definition.name, .setName, none⟩) := by
    have hchecked : checkedLayers toolset request =
        [staticLayer toolset.toSettings] ++ context toolset request := rfl
    unfold layers
    rw [hchecked, Merge.voices_append, Merge.voices_append, Merge.voices_append, hnone]
    exact List.perm_append_comm
  unfold listedName checkedName Merge.wireName
  rw [Merge.winner_perm hperm (Merge.settled h.folded _)]

/-- The names hold in a composition that is validated now, over a base of distinct names in
which nested toolsets rename nothing. -/
theorem Passes.namesHold (h : Passes memo toolset request composed memo' winners made)
    (hbase : ((kept toolset request).map fun spec => spec.definition.name).Nodup)
    (hsilent : ∀ override ∈ Merge.spoken (expanded toolset request).2, override.op ≠ .setName)
    (hfresh : (toolset.slug, catalogVersion (kept toolset request), context toolset request) ∉
      memo) :
    NamesHold memo toolset request where
  base := hbase
  nested := by
    intro spec _ hmoved
    refine absurd (h.unmoved ?_) hmoved
    intro override hspoken hslot
    exact hsilent override hspoken (congrArg Slot.op hslot)
  remembered := fun hremembered => absurd hremembered hfresh

end Custom

namespace Sample

/-- A tool with a description. -/
def described (name description : String) : Spec where
  module := "Files"
  function := name
  arity := 1
  definition := { name := name, description := .str description }

/-- The tools of a second sample module. -/
def drawers (name : String) : Option (List Spec) :=
  if name = "Files" then some [described "open" "reads a file", described "close" "closes a file"]
  else none

/-- The toolset renames `open` in its own ops. -/
def renamed : Custom where
  slug := "files"
  base := .module "Files"
  tools := [("open", [.override (op .setName "open" (.str "load"))])]

/-- A nested base gives `open` the name of another tool. -/
def shadowed : Custom where
  slug := "files"
  base := .custom { slug := "inner",
                    tools := [("open", [.override (op .setName "open" (.str "close"))])] }
    (.module "Files")

def visits : Request where
  surface := drawers

end Sample

namespace Custom

theorem listed_resolved_iff_sample :
    ∃ composed, (Composition.perform {}
        ⟨0, Sample.renamed, Sample.visits, true, fun _ => true⟩).1 = .ok composed ∧
      composed.entries.map (fun entry => entry.definition.name) = ["load", "close"] ∧
      ∀ name effective, resolveIn composed name = .ok effective →
        ∃ spec ∈ kept Sample.renamed Sample.visits,
          listedName Sample.renamed Sample.visits spec = name ∧
          MadeOf Sample.renamed Sample.visits spec effective := by
  have hentries : ((Composition.perform {}
      ⟨0, Sample.renamed, Sample.visits, true, fun _ => true⟩).1.toOption.map fun composed =>
        composed.entries.map fun entry => entry.definition.name) = some ["load", "close"] := by
    decide +kernel
  cases hperform : (Composition.perform {}
      ⟨0, Sample.renamed, Sample.visits, true, fun _ => true⟩).1 with rw [hperform] at hentries
  | error => cases hentries
  | ok composed =>
    have hcache : Composition.cached {}
        ⟨0, Sample.renamed, Sample.visits, true, fun _ => true⟩ = none := by
      simp [Composition.cached]
    obtain ⟨memo', hcompose⟩ := Composition.compose_of_perform hperform hcache
    obtain ⟨winners, made, hpasses⟩ := compose_eq_ok hcompose
    have hnames : NamesHold [] Sample.renamed Sample.visits :=
      hpasses.namesHold (by decide +kernel) (by decide +kernel) List.not_mem_nil
    obtain ⟨_, _, hresolved⟩ := (listed_resolved_iff hperform hcache).mpr hnames
    refine ⟨composed, rfl, Option.some.inj hentries, ?_⟩
    intro name effective hresolve
    obtain ⟨spec, hspec, hname, hmade, _⟩ := hresolved name effective hresolve
    exact ⟨spec, hspec, hname, hmade⟩

/-- Two tools are listed as `close`. The name resolves to the entry of `open` with the spec
of `close`. -/
theorem shadowed_tool_resolved :
    (compose [] Sample.shadowed Sample.visits).1.toOption.map (fun composed =>
        composed.entries.map fun entry => entry.definition.name) = some ["close", "close"] ∧
      (resolve [] Sample.shadowed Sample.visits "close").toOption.map (fun effective =>
        (effective.entry.definition.description, effective.spec.function)) =
      some (.str "reads a file", "close") := by
  decide +kernel

end Custom

end NoizuMcp.Toolset
