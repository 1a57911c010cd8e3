import NoizuMcp.Toolset.Custom

/-!
# Denied tools

A tool that the access policy does not allow the caller is neither visible nor callable
in any composition: the denial speaks at weight 300, above every grant, negotiation and
static op. Whether it is hidden is another matter. `resolve/4` finds a tool by its wire
name, and its error tells a tool with a missing consent from one that does not exist.
The reason of a gated entry is the negotiation even if the policy denies the tool, so a
denied tool that also has an unsatisfied negotiation is given away.
-/

set_option autoImplicit false

namespace NoizuMcp.Toolset.Custom

variable {memo memo' : Memo} {toolset : Custom} {request : Request} {composed : Composed}
  {winners : Winners} {made : List Made} {layer : Layer} {acl : Acl} {spec : Spec}

/-! ## Weights -/

section

variable (h : Passes memo toolset request composed memo' winners made)

include h

/-- Where a folded layer comes from. -/
theorem Passes.layer_cases (hmem : layer ∈ layers toolset request) :
    (∃ acl, Context.aclLayers (kept toolset request) request.acl = some acl ∧ layer ∈ acl) ∨
      layer ∈ (persistedFor toolset request).layers ∨ layer ∈ request.contextLayers ∨
      layer.weight = staticWeight := by
  obtain ⟨acl, hacl, hcontext⟩ := Option.map_eq_some_iff.mp h.layered
  rcases List.mem_append.mp hmem with hctx | hstatic
  · rw [← hcontext] at hctx
    rcases List.mem_append.mp hctx with hfront | hhost
    · rcases List.mem_append.mp hfront with hown | hpersisted
      · exact .inl ⟨acl, hacl, hown⟩
      · exact .inr (.inl hpersisted)
    · split at hhost
      · cases hhost
      · exact .inr (.inr (.inl hhost))
  · rcases List.mem_append.mp hstatic with hnested | hown
    · exact .inr (.inr (.inr (expandBase_weight h.expands layer hnested)))
    · rw [List.mem_singleton.mp hown]
      exact .inr (.inr (.inr rfl))

/-- With host layers below the access layer, only denials reach its weight. -/
theorem Passes.spoken_below
    (hhost : ∀ layer ∈ request.contextLayers, layer.weight < Context.aclWeight)
    {override : Override} (hmem : override ∈ Merge.spoken (layers toolset request)) :
    override.weight ≤ Context.aclWeight ∧
      (override.inherits = true → override.weight < Context.aclWeight) := by
  obtain ⟨layer, hlayer, hspoken⟩ := Merge.mem_spoken.mp hmem
  obtain ⟨stated, hstated, rfl⟩ := Merge.mem_layer_spoken.mp hspoken
  show layer.weight ≤ _ ∧ (stated.inherits = true → layer.weight < _)
  rcases h.layer_cases hlayer with ⟨acl, hacl, hin⟩ | hpersisted | hown | hstatic
  · obtain ⟨hweight, hstates⟩ := Context.aclLayers_denies hacl hin
    refine ⟨hweight.le, ?_⟩
    intro hinherits
    rw [hstates stated hstated] at hinherits
    cases hinherits
  · have hlt : layer.weight < Context.aclWeight := by
      rw [Context.persisted_weight hpersisted]
      decide
    exact ⟨hlt.le, fun _ => hlt⟩
  · exact ⟨(hhost layer hown).le, fun _ => hhost layer hown⟩
  · have hlt : layer.weight < Context.aclWeight := by
      rw [hstatic]
      decide
    exact ⟨hlt.le, fun _ => hlt⟩

/-- The flags of a denied tool are down, whatever the other layers say. -/
theorem Passes.denied_flag (hacl : request.acl = some acl)
    (hhost : ∀ layer ∈ request.contextLayers, layer.weight < Context.aclWeight)
    (hspec : spec ∈ kept toolset request) (hdenied : acl.allows spec.definition.name = false)
    {op : Op} (hop : op = .setVisible ∨ op = .setCallable) (own : Bool) :
    Merge.flag (layers toolset request) spec.definition.name op own = false := by
  obtain ⟨aclLayers, hlayers, hcontext⟩ := Option.map_eq_some_iff.mp h.layered
  rw [hacl] at hlayers
  obtain ⟨layer, hlayer, hstated⟩ := Context.denial_mem_aclLayers hlayers hspec hdenied hop
  have hweight := (Context.aclLayers_denies hlayers hlayer).1
  have hmem : layer ∈ layers toolset request := by
    refine List.mem_append.mpr (.inl ?_)
    rw [← hcontext]
    exact List.mem_append.mpr (.inl (List.mem_append.mpr (.inl hlayer)))
  -- the denial as the fold sees it, with the weight of its layer
  have hspoken := Merge.mem_spoken.mpr ⟨layer, hmem, Merge.mem_layer_spoken.mpr ⟨_, hstated, rfl⟩⟩
  have hwins := Merge.winner_of_top h.folded hspoken rfl
    (fun other hother _ => (h.spoken_below hhost hother).1.trans hweight.ge)
    (fun other hother _ hclears => ((h.spoken_below hhost hother).2 hclears).trans_le hweight.ge)
  have hslot : Merge.slotFor { Context.denial op spec.definition.name with
      weight := layer.weight, layer := some layer.id } = ⟨.str spec.definition.name, op, none⟩ := by
    rcases hop with rfl | rfl <;> rfl
  rw [hslot] at hwins
  unfold Merge.flag
  rw [hwins]
  rfl

end

/-! ## What a name resolves to -/

/-- The first tool kept that the layers list under a wire name. -/
def firstNamed (toolset : Custom) (request : Request) (wire : String) : Option Spec :=
  (kept toolset request).find? fun spec =>
    Merge.wireName (layers toolset request) spec.definition.name == wire

/-- Nothing that is listed under the wire name shows through `resolve/4`: the first tool
of that name is not callable, and it misses no consent, unless no negotiation is
recorded under the wire name. -/
def Concealed (toolset : Custom) (request : Request) (wire : String) : Prop :=
  ∀ first, firstNamed toolset request wire = some first →
    Merge.flag (layers toolset request) first.definition.name .setCallable first.callable = false ∧
      (missingOf (persistedFor toolset request).negotiations first.definition.name = [] ∨
        (persistedFor toolset request).negotiations.lookup wire = none)

instance (toolset : Custom) (request : Request) (wire : String) :
    Decidable (Concealed toolset request wire) :=
  inferInstanceAs (Decidable (∀ first ∈ firstNamed toolset request wire, _ ∧ (_ ∨ _)))

theorem find_shows {folded : List Layer} {negotiations : List (String × NegotiationState)}
    {specs : List Spec} (h : List.Forall₂ (Shows folded negotiations) specs made) (wire : String)
    (hsome : ∃ tool ∈ made, Made.name tool = wire) :
    ∃ first tool,
      specs.find? (fun spec => Merge.wireName folded spec.definition.name == wire) = some first ∧
      made.find? (fun tool => Made.name tool == wire) = some tool ∧
      Shows folded negotiations first tool := by
  induction h with
  | nil =>
    obtain ⟨tool, hmem, _⟩ := hsome
    cases hmem
  | @cons spec tool _ _ hshows _ ih =>
    have hname : Made.name tool = Merge.wireName folded spec.definition.name := hshows.name
    by_cases hwire : Made.name tool = wire
    · refine ⟨spec, tool, ?_, ?_, hshows⟩
      · rw [List.find?_cons_of_pos (by simp [← hname, hwire])]
      · rw [List.find?_cons_of_pos (by simp [hwire])]
    · rw [List.find?_cons_of_neg (by simpa [← hname] using hwire),
        List.find?_cons_of_neg (by simpa using hwire)]
      apply ih
      obtain ⟨other, hmem, hother⟩ := hsome
      rcases List.mem_cons.mp hmem with rfl | hrest
      · exact absurd hother hwire
      · exact ⟨other, hrest, hother⟩

/-- A listed name resolves to the error of an unknown one just if it is concealed. -/
theorem Passes.unknown_iff (h : Passes memo toolset request composed memo' winners made)
    {wire : String} (hlisted : ∃ tool ∈ made, Made.name tool = wire) :
    resolveIn composed wire = .error (unknownTool wire) ↔ Concealed toolset request wire := by
  obtain ⟨first, tool, hfirst, htool, hshows⟩ := find_shows h.shows wire hlisted
  obtain ⟨hserved, hrefused⟩ := h.resolve_first htool
  have hconcealed : Concealed toolset request wire ↔
      tool.entry.callable = false ∧
        (missingOf (persistedFor toolset request).negotiations first.definition.name = [] ∨
          (persistedFor toolset request).negotiations.lookup wire = none) := by
    rw [hshows.callable]
    constructor
    · intro hall
      exact hall first hfirst
    · intro hcond other hother
      cases hfirst.symm.trans hother
      exact hcond
  rw [hconcealed]
  cases hcallable : tool.entry.callable with
  | true =>
    obtain ⟨last, _, hresolve⟩ := hserved hcallable
    rw [hresolve]
    simp
  | false =>
    rw [hrefused hcallable, h.negotiations]
    by_cases hmissing :
        missingOf (persistedFor toolset request).negotiations first.definition.name = []
    · -- no consent is missing, so the reason is not a negotiation
      have hreason := hshows.ungated hmissing
      constructor
      · intro _
        exact ⟨rfl, .inl hmissing⟩
      · intro _ missing hnegotiation
        exact absurd hnegotiation (hreason missing)
    · have hreason := hshows.gated hmissing
      constructor
      · intro hnone
        exact ⟨rfl, .inr (hnone _ hreason hmissing)⟩
      · rintro ⟨_, hcond⟩ missing _ _
        exact hcond.resolve_left hmissing

theorem resolveIn_absent {name : String}
    (h : ∀ entry ∈ composed.entries, entry.definition.name ≠ name) :
    resolveIn composed name = .error (unknownTool name) := by
  have hnone : composed.entries.find? (fun entry => entry.definition.name == name) = none := by
    rw [List.find?_eq_none]
    intro entry hentry
    simpa using h entry hentry
  unfold resolveIn
  rw [hnone]

/-! ## Denied tools -/

/-- What is made of a denied tool is neither visible nor callable. -/
theorem denied_entry_hidden (h : compose memo toolset request = (.ok composed, memo'))
    (hacl : request.acl = some acl)
    (hhost : ∀ layer ∈ request.contextLayers, layer.weight < Context.aclWeight) {entry : Entry}
    (hpair : (spec, entry) ∈ (kept toolset request).zip composed.entries)
    (hdenied : acl.allows spec.definition.name = false) :
    entry.visible = false ∧ entry.callable = false := by
  obtain ⟨winners, made, hpasses⟩ := compose_eq_ok h
  rw [hpasses.entries, List.zip_map_right] at hpair
  obtain ⟨⟨spec, tool⟩, hzip, heq⟩ := List.mem_map.mp hpair
  cases heq
  have hmade := List.forall₂_zip hpasses.shows hzip
  have hspec := (List.of_mem_zip hzip).1
  constructor
  · rw [hmade.visible]
    exact hpasses.denied_flag hacl hhost hspec hdenied (.inl rfl) _
  · rw [hmade.callable]
    exact hpasses.denied_flag hacl hhost hspec hdenied (.inr rfl) _

/-- In a composition that is not a row of the cache, a tool that the policy does not allow
the caller is neither visible nor callable. It resolves to the error of a name that does not
exist if, and only if, its wire name is concealed. -/
theorem denied_hidden_iff {state : Remembered} {current : Composition}
    (hperform : (current.perform state).1 = .ok composed) (hcache : current.cached state = none)
    (hacl : current.request.acl = some acl)
    (hhost : ∀ layer ∈ current.request.contextLayers, layer.weight < Context.aclWeight) :
    composed.entries.length = (kept current.toolset current.request).length ∧
    (∀ name, (∀ entry ∈ composed.entries, entry.definition.name ≠ name) →
      resolveIn composed name = .error (unknownTool name)) ∧
    ((∀ spec entry, (spec, entry) ∈ (kept current.toolset current.request).zip composed.entries →
        acl.allows spec.definition.name = false →
        entry.visible = false ∧ entry.callable = false ∧
          resolveIn composed entry.definition.name =
            .error (unknownTool entry.definition.name)) ↔
      ∀ spec ∈ kept current.toolset current.request, acl.allows spec.definition.name = false →
        Concealed current.toolset current.request
          (Merge.wireName (layers current.toolset current.request) spec.definition.name)) := by
  obtain ⟨memo', h⟩ := Composition.compose_of_perform hperform hcache
  obtain ⟨winners, made, hpasses⟩ := compose_eq_ok h
  have hshows := hpasses.shows
  refine ⟨?_, ?_, ?_, ?_⟩
  · rw [hpasses.entries, List.length_map, hshows.length_eq]
  · intro name habsent
    exact resolveIn_absent habsent
  · intro hall spec hspec hdenied
    rw [← List.map_fst_zip hshows.length_eq.le] at hspec
    obtain ⟨⟨spec, tool⟩, hzip, rfl⟩ := List.mem_map.mp hspec
    have hpair : (spec, tool.entry) ∈
        (kept current.toolset current.request).zip composed.entries := by
      rw [hpasses.entries, List.zip_map_right]
      exact List.mem_map.mpr ⟨_, hzip, rfl⟩
    have hmade := List.forall₂_zip hshows hzip
    have hresolve := (hall spec tool.entry hpair hdenied).2.2
    rw [← hmade.name]
    exact (hpasses.unknown_iff ⟨tool, List.of_mem_zip hzip |>.2, rfl⟩).mp hresolve
  · intro hall spec entry hpair hdenied
    have hhidden := denied_entry_hidden h hacl hhost hpair hdenied
    rw [hpasses.entries, List.zip_map_right] at hpair
    obtain ⟨⟨spec, tool⟩, hzip, heq⟩ := List.mem_map.mp hpair
    cases heq
    have hmade := List.forall₂_zip hshows hzip
    have hspec := (List.of_mem_zip hzip).1
    refine ⟨hhidden.1, hhidden.2, ?_⟩
    · apply (hpasses.unknown_iff ⟨tool, (List.of_mem_zip hzip).2, rfl⟩).mpr
      have hname : Made.name tool = _ := hmade.name
      rw [hname]
      exact hall spec hspec hdenied

end NoizuMcp.Toolset.Custom

/-! ## A shared sample -/

namespace NoizuMcp.Toolset.Sample

/-- A tool of a sample module. -/
def tool (name : String) : Spec where
  module := "Files"
  function := name
  arity := 1
  definition := { name := name }

/-- The tools that the sample module lists. -/
def surface (name : String) : Option (List Spec) :=
  if name = "Files" then some [tool "read", tool "write"] else none

/-- An op on a tool. -/
def op (op : Op) (target : String) (value : Term) : Override where
  op := op
  target := .str target
  value := value

def alice : Principal where
  subject := .str "alice"
  authenticator := .atom "claims"
  grantedScopes := ["files:read"]

/-- A policy that lets nobody write. -/
def policy : Acl where
  provider := "ReadOnly"
  allows := fun name => name != "write"

/-- The toolset renames `write` in a nested base, and shows it in its own ops. -/
def toolset : Custom where
  slug := "files"
  base := .custom
    { slug := "renamed"
      tools := [("write", [.override (op .setName "write" (.str "store"))])] }
    (.module "Files")
  tools := [("write", [.override (op .setVisible "write" (.bool true))])]

/-- The same module without renames. -/
def plain : Custom where
  slug := "files"
  base := .module "Files"

/-- A grant that makes `write` callable for alice. -/
def opens : Grant where
  id := "g1"
  toolsetSlug := "files"
  authenticator := some "claims"
  subject := "alice"
  effect := .allow
  toolOverrides := [("write", [op .setCallable "write" (.bool true)])]

/-- Writing takes a scope that alice does not have. -/
def gate : Negotiation where
  id := "n1"
  toolsetSlug := "files"
  authenticator := some "claims"
  tool := "write"
  requiredScopes := [.str "files:write"]

def granted : Request where
  auth := some alice
  surface := surface
  acl := some policy
  selection := .enabled { grants := [{ payload := some opens, insertedAt := 1, sort := 1 }] }

def gated : Request where
  auth := some alice
  surface := surface
  acl := some policy
  selection := .enabled { negotiations := [{ payload := some gate, insertedAt := 1, sort := 1 }] }

/-- A composition with the cache turned on. -/
def caching : Composition where
  toolset := toolset
  request := granted
  caching := true

end NoizuMcp.Toolset.Sample

namespace NoizuMcp.Toolset.Custom

theorem denied_hidden_iff_sample :
    ∃ composed, (Sample.caching.perform {}).1 = .ok composed ∧
      Sample.caching.cached {} = none ∧
      composed.entries.map (fun entry => entry.definition.name) = ["read", "store"] ∧
      ∀ spec entry, (spec, entry) ∈ (kept Sample.toolset Sample.granted).zip composed.entries →
        Sample.policy.allows spec.definition.name = false →
        entry.visible = false ∧ entry.callable = false ∧
          resolveIn composed entry.definition.name =
            .error (unknownTool entry.definition.name) := by
  have hnames : ((Sample.caching.perform {}).1.toOption.map fun composed =>
      composed.entries.map fun entry => entry.definition.name) = some ["read", "store"] := by
    decide +kernel
  have hcache : Sample.caching.cached {} = none := by simp [Composition.cached]
  cases hperform : (Sample.caching.perform {}).1 with rw [hperform] at hnames
  | error => cases hnames
  | ok composed =>
    refine ⟨composed, rfl, hcache, Option.some.inj hnames, ?_⟩
    apply (denied_hidden_iff hperform hcache rfl (by decide)).2.2.mpr
    decide +kernel

/-- The policy denies `write`, and its name gives away that it exists. -/
theorem denied_tool_forbidden :
    Sample.policy.allows "write" = false ∧
      resolve [] Sample.plain Sample.gated "erase" = .error (unknownTool "erase") ∧
      resolve [] Sample.plain Sample.gated "write" =
        .error (.forbidden "tool requires scopes" "write" [.str "files:write"]
          [.str "files:write"] "n1" []) := by
  decide +kernel

end NoizuMcp.Toolset.Custom
