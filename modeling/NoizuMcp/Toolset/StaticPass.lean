import NoizuMcp.Toolset.Override

/-!
# Custom toolsets and their static pass

`%Noizu.MCP.Toolset.Custom{}`: a base, filters on the names of its tools, and override
ops per tool. The base is a module that lists specs, or another custom toolset. The
static pass expands the base: every nested toolset filters the specs that come up from
below it and adds its ops as a layer of weight 100. Nested toolsets contribute nothing
else, and a slug that comes twice in the chain is an error.
-/

set_option autoImplicit false

namespace NoizuMcp.Toolset

/-- The fields of a custom toolset other than its base. -/
structure Settings where
  slug : String
  immutable : Bool := false
  includes : Option (List String) := none
  excludes : List String := []
  tools : List (String × List LayerOp) := []
  deriving DecidableEq

/-- The base of a custom toolset. -/
inductive Base where
  | module (name : String)
  | ref (target : Base)
  | custom (settings : Settings) (base : Base)
  | unsupported (term : Term)
  deriving DecidableEq

/-- `%Custom{}`. -/
structure Custom extends Settings where
  base : Base
  deriving DecidableEq

namespace Custom

/-- The layer of the toolset's own overrides. -/
def staticWeight : Int := 100

/-- `flatten_tools/1`: the ops of all tools, each with its tool. -/
def flattenTools (tools : List (String × List LayerOp)) : List LayerOp :=
  tools.flatMap fun (name, ops) => ops.map fun
    | .override override => .override { override with tool := some name }
    | .other term => .other term

/-- The toolset's own overrides, as a layer. -/
def staticLayer (settings : Settings) : Layer where
  id := .static settings.slug
  weight := staticWeight
  ops := flattenTools settings.tools

/-- A base name passes the filters: `exclude` first, then `include`. -/
def keeps (settings : Settings) (name : String) : Bool :=
  name ∉ settings.excludes && match settings.includes with
    | none => true
    | some wanted => name ∈ wanted

/-- The tools that the toolset takes from its base. -/
def filterSpecs (settings : Settings) (specs : List Spec) : List Spec :=
  specs.filter fun spec => keeps settings spec.definition.name

/-- `expand_base/4`: the specs, and the layers of the nested toolsets. A module that
answers with no list of specs is an unknown base. -/
def expandBase (surface : String → Option (List Spec)) :
    Base → List String → Except (List Issue) (List Spec × List Layer)
  | .module name, _ =>
    match surface name with
    | some specs => .ok (specs, [])
    | none => .error [⟨.unknownBase, none, none, none⟩]
  | .ref target, chain => expandBase surface target chain
  | .custom settings base, chain =>
    if settings.slug ∈ chain then .error [⟨.cycle, none, none, none⟩]
    else
      match expandBase surface base (settings.slug :: chain) with
      | .ok (specs, layers) => .ok (filterSpecs settings specs, layers ++ [staticLayer settings])
      | .error issues => .error issues
  | .unsupported _, _ => .error [⟨.unknownBase, none, none, none⟩]

/-- Nested layers all have the weight of static ones. -/
theorem expandBase_weight {surface : String → Option (List Spec)} {base : Base}
    {chain : List String} {specs : List Spec} {layers : List Layer}
    (h : expandBase surface base chain = .ok (specs, layers)) :
    ∀ layer ∈ layers, layer.weight = staticWeight := by
  induction base generalizing chain specs layers with unfold expandBase at h
  | module =>
    split at h
    · cases h
      intro layer hmem
      cases hmem
    · cases h
  | ref _ ih => exact ih h
  | custom settings base ih =>
    split at h
    case isTrue => cases h
    case isFalse =>
      cases hbase : expandBase surface base (settings.slug :: chain) with rw [hbase] at h
      | error => cases h
      | ok =>
        cases h
        intro layer hmem
        rcases List.mem_append.mp hmem with hnested | hown
        · exact ih hbase layer hnested
        · rw [List.mem_singleton.mp hown]
          rfl
  | unsupported => cases h

end Custom

end NoizuMcp.Toolset
