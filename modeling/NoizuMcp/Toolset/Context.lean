import NoizuMcp.Toolset.Persistence

/-!
# The context pass

`Noizu.MCP.Toolset.Context`: the layers that a request folds over the static surface.
The access layer denies at weight 300 every tool that the provider of the policy does
not allow. The persisted layers speak at weight 200: an allow grant with its ops, a
deny grant and an unsatisfied negotiation with a `set_callable false` on each tool they
gate. If the stored records cannot be read, there are no persisted layers.
-/

set_option autoImplicit false

namespace NoizuMcp.Toolset

/-- The provider of the access policy that governs a request: its module, whether
tools are among the kinds it governs, and the tools it allows the caller. A provider
that raises allows nothing. -/
structure Acl where
  provider : String
  governsTools : Bool := true
  allows : String → Bool

/-- What composition keeps of the negotiation of a tool. -/
structure NegotiationState where
  required : List Term
  missing : List Term
  granted : Bool
  metadataOverrides : TermMap
  id : String
  metadata : TermMap
  deriving DecidableEq

/-- The persisted state for one request. -/
structure Persisted where
  layers : List Layer := []
  versions : Option StoreVersions := none
  negotiations : List (String × NegotiationState) := []
  disabled : Bool := false
  degraded : Bool := false
  deriving DecidableEq

/-- The persistence provider that governs a request. -/
inductive Selection where
  | unresolved
  | disabled
  | enabled (provider : Provider)

namespace Context

/-- The layer of the access policy. -/
def aclWeight : Int := 300

/-- The layers of what is persisted. -/
def persistedWeight : Int := 200

/-- An op that sets a flag of a tool to `false`. -/
def denial (op : Op) (tool : String) : Override where
  op := op
  target := .str tool
  value := .bool false
  tool := some tool

/-- `acl_layer/4`, as a list of at most one layer; `none` if the provider does not
govern tools, which raises. -/
def aclLayers (specs : List Spec) : Option Acl → Option (List Layer)
  | none => some []
  | some acl =>
    if specs.isEmpty then some []
    else if acl.governsTools then
      some [{ id := .acl acl.provider
              weight := aclWeight
              ops := specs.flatMap fun spec =>
                let name := spec.definition.name
                if acl.allows name then []
                else
                  [.override (denial .setVisible name), .override (denial .setCallable name)] }]
    else none

/-! ## Scopes -/

/-- A granted scope covers a required one: equal, `*`, or a prefix up to a final `*`. -/
def covers (granted required : String) : Bool :=
  if granted = "*" then true
  else if granted.toList.getLast? = some '*' then
    granted.toList.dropLast.isPrefixOf required.toList
  else granted == required

/-- One of the granted scopes covers the required one; `none` if a term that is no
string is reached first. -/
def anyCovers (required : String) : List Term → Option Bool
  | [] => some false
  | .str granted :: rest => if covers granted required then some true else anyCovers required rest
  | _ :: _ => none

/-- `scope_covered?/2`; it has no clause for a required scope that is no string. -/
def scopeCovered (effective : List Term) : Term → Option Bool
  | .str required => anyCovers required effective
  | _ => none

/-- The required scopes that are not covered. -/
def missingScopes (effective : List Term) : List Term → Option (List Term)
  | [] => some []
  | required :: rest =>
    match scopeCovered effective required, missingScopes effective rest with
    | some true, some missing => some missing
    | some false, some missing => some (required :: missing)
    | _, _ => none

/-- The principal's scopes, with those of its grants. -/
def effectiveScopes (principal : Option Principal) (grantScopes : List Term) : List Term :=
  match principal with
  | none => grantScopes
  | some principal => (principal.grantedScopes.map Term.str ++ grantScopes).eraseDups

/-! ## Grants -/

/-- The target of an op of an allow grant: the tool, if the record leaves it out. -/
def opTarget (tool : String) (override : Override) : Term :=
  if override.target = .nil ∨ override.target = .bool false then
    if override.op.isField then override.target else .str tool
  else override.target

/-- The overrides that an allowing grant brings. -/
def allowLayer (grant : Grant) : Layer where
  id := .persisted grant.id
  weight := persistedWeight
  ops := grant.toolOverrides.flatMap fun (tool, ops) => ops.map fun override =>
    .override {
      op := override.op
      target := opTarget tool override
      value := override.value
      tool := some tool
      inherits := override.inherits }

/-- A denying grant hides its tools and closes them. -/
def denyLayer (grant : Grant) : Layer where
  id := .persisted grant.id
  weight := persistedWeight
  ops := grant.toolOverrides.flatMap fun (tool, _) =>
    [.override (denial .setVisible tool), .override (denial .setCallable tool)]

/-- The filter of the caller's grants, with `put_subject/2`; an anonymous caller has
none. -/
def grantFilter (slug : String) : Option Principal → Option Persistence.GrantFilter
  | none => none
  | some principal => some {
      toolsetSlug := slug
      authenticator := principal.authenticator
      subject := if principal.subject = .nil then none else some principal.subject }

/-- The grants read for the caller; `none` if they cannot be read. -/
def fetchGrants (provider : Provider) (now : Nat) (slug : String)
    (principal : Option Principal) : Option (List Grant) :=
  match grantFilter slug principal with
  | none => some []
  | some filter =>
    if provider.reachable then Persistence.list provider.grants now filter.pass else none

/-! ## Negotiations -/

/-- The filter of the negotiations that concern the caller. -/
def negotiationFilter (slug : String) (principal : Option Principal) :
    Persistence.NegotiationFilter where
  toolsetSlug := slug
  authenticator := principal.map (·.authenticator)

/-- The negotiations read for the caller. -/
def fetchNegotiations (provider : Provider) (now : Nat) (slug : String)
    (principal : Option Principal) : Option (List Negotiation) :=
  if provider.reachable then
    Persistence.list provider.negotiations now (negotiationFilter slug principal).pass
  else none

/-- `Enum.uniq_by(negotiations, & &1.tool)`. -/
def uniqByTool : List Negotiation → List Negotiation
  | [] => []
  | negotiation :: rest =>
    negotiation :: (uniqByTool rest).filter fun other => other.tool ≠ negotiation.tool

/-- The layer of an unsatisfied negotiation. -/
def gateLayer (negotiation : Negotiation) : Layer where
  id := .negotiation negotiation.id
  weight := persistedWeight
  ops := [.override (denial .setCallable negotiation.tool)]

/-- The state of a negotiation of which these scopes are missing. -/
def stateOf (negotiation : Negotiation) (missing : List Term) : NegotiationState where
  required := negotiation.requiredScopes
  missing := if negotiation.granted then [] else missing
  granted := negotiation.granted
  metadataOverrides := if negotiation.granted then negotiation.metadataOverrides else []
  id := negotiation.id
  metadata := negotiation.metadata

/-- The negotiation gates its tool. -/
def unsatisfied (negotiation : Negotiation) (missing : List Term) : Bool :=
  !negotiation.granted && !missing.isEmpty

/-- The missing scopes of every negotiation. -/
def weighed (effective : List Term) : List Negotiation → Option (List (Negotiation × List Term))
  | [] => some []
  | negotiation :: rest =>
    match missingScopes effective negotiation.requiredScopes, weighed effective rest with
    | some missing, some others => some ((negotiation, missing) :: others)
    | _, _ => none

/-- `negotiation_ops/2`: the gates, and the state of every negotiated tool. -/
def negotiationOps (negotiations : List Negotiation) (effective : List Term) :
    Option (List Layer × List (String × NegotiationState)) :=
  (weighed effective (uniqByTool negotiations)).map fun weighed =>
    (((weighed.filter fun row => unsatisfied row.1 row.2).map fun row => gateLayer row.1).reverse,
      weighed.map fun row => (row.1.tool, stateOf row.1 row.2))

/-! ## The persisted state -/

def allowGrants (grants : List Grant) : List Grant :=
  grants.filter fun grant => grant.effect = .allow

def denyGrants (grants : List Grant) : List Grant :=
  grants.filter fun grant => grant.effect = .deny

/-- The scopes the caller has through the principal and the allow grants. -/
def callerScopes (principal : Option Principal) (grants : List Grant) : List Term :=
  effectiveScopes principal ((allowGrants grants).flatMap (·.scopes))

/-- `build_persisted/4` on the records read; `none` if it raises. -/
def assemble (principal : Option Principal) (grants : List Grant)
    (negotiations : List Negotiation) (versions : StoreVersions) : Option Persisted :=
  (negotiationOps negotiations (callerScopes principal grants)).map fun (gates, state) => {
    layers := ((allowGrants grants).map allowLayer ++ (denyGrants grants).map denyLayer) ++ gates
    versions := some versions
    negotiations := state }

/-- `build_persisted/4`; `none` if it degrades. -/
def read (provider : Provider) (now : Nat) (slug : String) (principal : Option Principal) :
    Option Persisted :=
  match fetchGrants provider now slug principal, fetchNegotiations provider now slug principal with
  | some grants, some negotiations => assemble principal grants negotiations provider.versions
  | _, _ => none

/-- `Context.persisted/3` for a toolset with a slug. -/
def persisted (slug : String) (immutable : Bool) (principal : Option Principal) (now : Nat)
    (selection : Selection) : Persisted :=
  if immutable then {}
  else match selection with
    | .unresolved => {}
    | .disabled => { disabled := true }
    | .enabled provider => (read provider now slug principal).getD { degraded := true }

/-! ## The layers of a request -/

variable {specs : List Spec} {acl : Option Acl} {layers : List Layer} {layer : Layer}
  {provider : Provider} {now : Nat} {slug : String} {principal : Option Principal}
  {grants : List Grant} {negotiations : List Negotiation} {versions : StoreVersions}
  {state : Persisted}

/-- The access layer only denies. -/
theorem aclLayers_denies (h : aclLayers specs acl = some layers) (hmem : layer ∈ layers) :
    layer.weight = aclWeight ∧
      ∀ override, .override override ∈ layer.ops → override.inherits = false := by
  unfold aclLayers at h
  split at h
  case h_1 =>
    cases h
    cases hmem
  case h_2 =>
    split at h
    · cases h
      cases hmem
    · split at h
      · cases h
        rw [List.mem_singleton.mp hmem]
        refine ⟨rfl, ?_⟩
        intro override hop
        obtain ⟨spec, _, hspec⟩ := List.mem_flatMap.mp hop
        dsimp only at hspec
        split at hspec
        · cases hspec
        · simp only [List.mem_cons, LayerOp.override.injEq, List.not_mem_nil, or_false] at hspec
          rcases hspec with rfl | rfl <;> rfl
      · cases h

/-- Every tool that the provider does not allow is denied. -/
theorem denial_mem_aclLayers {acl : Acl} (h : aclLayers specs (some acl) = some layers)
    {spec : Spec} (hspec : spec ∈ specs) (hdenied : acl.allows spec.definition.name = false)
    {op : Op} (hop : op = .setVisible ∨ op = .setCallable) :
    ∃ layer ∈ layers, .override (denial op spec.definition.name) ∈ layer.ops := by
  have hne : specs.isEmpty = false := by
    cases specs with
    | nil => cases hspec
    | cons => rfl
  unfold aclLayers at h
  simp only [hne, Bool.false_eq_true, if_false] at h
  split at h
  · cases h
    refine ⟨_, List.mem_singleton.mpr rfl, ?_⟩
    apply List.mem_flatMap.mpr
    refine ⟨spec, hspec, ?_⟩
    simp only [hdenied]
    rcases hop with rfl | rfl <;> simp
  · cases h

/-- The gates are the unsatisfied negotiations among those that count. -/
theorem negotiationOps_eq_some {effective : List Term} {gates : List Layer}
    {kept : List (String × NegotiationState)}
    (h : negotiationOps negotiations effective = some (gates, kept)) :
    ∃ rows, weighed effective (uniqByTool negotiations) = some rows ∧
      gates = ((rows.filter fun row => unsatisfied row.1 row.2).map
        fun row => gateLayer row.1).reverse ∧
      kept = rows.map fun row => (row.1.tool, stateOf row.1 row.2) := by
  obtain ⟨rows, hrows, heq⟩ := Option.map_eq_some_iff.mp h
  cases heq
  exact ⟨rows, hrows, rfl, rfl⟩

theorem assemble_eq_some (h : assemble principal grants negotiations versions = some state) :
    ∃ gates, negotiationOps negotiations (callerScopes principal grants) =
        some (gates, state.negotiations) ∧
      state.layers = ((allowGrants grants).map allowLayer ++ (denyGrants grants).map denyLayer) ++
        gates := by
  obtain ⟨⟨gates, kept⟩, hgates, heq⟩ := Option.map_eq_some_iff.mp h
  cases heq
  exact ⟨gates, hgates, rfl⟩

theorem assemble_weight (h : assemble principal grants negotiations versions = some state)
    (hmem : layer ∈ state.layers) : layer.weight = persistedWeight := by
  obtain ⟨gates, hgates, hlayers⟩ := assemble_eq_some h
  rw [hlayers] at hmem
  rcases List.mem_append.mp hmem with hgrants | hgate
  · rcases List.mem_append.mp hgrants with hallow | hdeny
    · obtain ⟨grant, _, rfl⟩ := List.mem_map.mp hallow
      rfl
    · obtain ⟨grant, _, rfl⟩ := List.mem_map.mp hdeny
      rfl
  · obtain ⟨rows, _, rfl, _⟩ := negotiationOps_eq_some hgates
    obtain ⟨row, _, rfl⟩ := List.mem_map.mp (List.mem_reverse.mp hgate)
    rfl

theorem read_eq_some (h : read provider now slug principal = some state) :
    ∃ grants negotiations, fetchGrants provider now slug principal = some grants ∧
      fetchNegotiations provider now slug principal = some negotiations ∧
      assemble principal grants negotiations provider.versions = some state := by
  unfold read at h
  split at h
  case h_1 grants negotiations hgrants hnegotiations =>
    exact ⟨grants, negotiations, hgrants, hnegotiations, h⟩
  case h_2 => cases h

/-- Persisted layers all speak at weight 200. -/
theorem persisted_weight {immutable : Bool} {selection : Selection}
    (hmem : layer ∈ (persisted slug immutable principal now selection).layers) :
    layer.weight = persistedWeight := by
  unfold persisted at hmem
  split at hmem
  · cases hmem
  · split at hmem
    · cases hmem
    · cases hmem
    case h_3 provider =>
      cases hread : read provider now slug principal with rw [hread] at hmem
      | none => cases hmem
      | some =>
        obtain ⟨grants, negotiations, _, _, hassemble⟩ := read_eq_some hread
        exact assemble_weight hassemble hmem

end Context

end NoizuMcp.Toolset
