import NoizuMcp.Toolset.Merge
import NoizuMcp.Toolset.StaticPass

/-!
# The validator

`Noizu.MCP.Toolset.Validator.compile/3` checks a custom toolset against the catalog of
its base: the names its `tools`, `include` and `exclude` mention, the ops of its own
`tools`, and the wire names its tools end up with. For the last it folds the static
layer of the toolset with the context layers of the request; the layers of nested bases
are not among them.
-/

set_option autoImplicit false

namespace NoizuMcp.Toolset

namespace Validator

open Overrides (fieldDefined isText)

/-! ## Chain and names -/

/-- `cycle_issues/2`; it does not look behind a reference. -/
def cycleIssues : Base → List String → List Issue
  | .custom settings base, chain =>
    if settings.slug ∈ chain then [⟨.cycle, none, none, none⟩]
    else cycleIssues base (settings.slug :: chain)
  | _, _ => []

def unknownToolIssue (name : String) : Issue := ⟨.unknownTool, none, some (.str name), none⟩

/-- Names in the toolset that its base does not have. -/
def unknownToolIssues (settings : Settings) (names : List String) : List Issue :=
  ((settings.tools.map Prod.fst ++ settings.includes.getD [] ++ settings.excludes).filter
    fun name => name ∉ names).map unknownToolIssue

/-! ## Ops -/

/-- `issue/6` of a field-level op. -/
def opIssue (code : IssueCode) (override : Override) : Issue :=
  ⟨code, some override.op, none, some override.target⟩

/-- The values of an enum field, `none` for another type. -/
def enumValues (fields : List Field) (target : Term) : Option (List Term) :=
  match fields.find? fun field => .atom field.name == target with
  | some field =>
    match field.type with
    | .enum values => some values
    | _ => none
  | none => none

/-- `List.wrap/1`. -/
def wrap : Term → List Term
  | .nil => []
  | .list items => items
  | term => [term]

/-- A value that is pruned has to be one of the enumeration. -/
def pruneIssues (override : Override) (fields : List Field) : List Issue :=
  match enumValues fields override.target with
  | some values =>
    if (wrap override.value).all fun value => value.text ∈ values.map Term.text then []
    else [opIssue .pruneNotSubset override]
  | none => []

/-- A rename must not meet a field, nor another rename. -/
def renameIssues (override : Override) (fields : List Field) (all : List Override) : List Issue :=
  let collides := isText override.value && fields.any fun field =>
    .atom field.name != override.target && .str field.name == override.value
  let duplicate := 1 < all.countP fun other =>
    other.op == .renameField && other.value == override.value
  if collides || duplicate || !isText override.value then [opIssue .renameCollision override]
  else []

/-- `type_compatible?/2`; a type that is no scalar is not checked. -/
def typeCompatible : FieldType → Term → Bool
  | .string, value => isText value
  | .integer, .int _ => true
  | .number, .int _ => true
  | .number, .float _ => true
  | .boolean, .bool _ => true
  | .integer, _ | .number, _ | .boolean, _ => false
  | _, _ => true

/-- A pinned value has to be one that the field takes. -/
def pinValid (override : Override) (fields : List Field) (all : List Override) : Bool :=
  match fields.find? fun field => .atom field.name == override.target with
  | none => true
  | some field =>
    match field.type with
    | .enum values =>
      let pruned := ((all.filter fun other => other.op == .pruneEnum).flatMap
        fun other => wrap other.value).map Term.text
      override.value.text ∈ values.map Term.text && override.value.text ∉ pruned
    | type => typeCompatible type override.value

/-- `op_issue/3`. -/
def opIssues (fields : Option (List Field)) (all : List Override) (override : Override) :
    List Issue :=
  if override.op = .setInputSchema then
    if fields.isSome then [⟨.rawSchemaOp, some override.op, none, none⟩] else []
  else if override.op.isField then
    match fields with
    | none => [opIssue .rawSchemaOp override]
    | some fields =>
      if !fieldDefined fields override.target then
        [opIssue (if override.op = .renameField then .renameTargetMissing else .unknownField)
          override]
      else match override.op with
        | .pruneEnum => pruneIssues override fields
        | .renameField => renameIssues override fields all
        | .pinDefault =>
          if pinValid override fields all then [] else [opIssue .pinDefaultInvalid override]
        | _ => []
  else []

/-- The overrides among the members of an op list. -/
def overridesOf (ops : List LayerOp) : List Override :=
  ops.filterMap fun
    | .override override => some override
    | .other _ => none

/-- `op_issues/2`: the ops of a tool are checked against the last spec of its name. -/
def toolOpIssues (settings : Settings) (specs : List Spec) : List Issue :=
  settings.tools.flatMap fun (name, ops) =>
    match specs.reverse.find? fun spec => spec.definition.name == name with
    | some spec =>
      (overridesOf ops).flatMap (opIssues spec.definition.inputFields (overridesOf ops))
    | none => []

/-! ## Wire names -/

/-- A character of `[a-zA-Z0-9_-]`. -/
def nameChar (c : Char) : Bool := c.isAlphanum || c == '_' || c == '-'

/-- `~r/^[a-zA-Z0-9_-]{1,64}$/`; the `$` also matches before a final line break. -/
def nameCharset (name : String) : Bool :=
  let chars := name.toList
  let line := if chars.getLast? = some '\n' then chars.dropLast else chars
  line.all nameChar && 1 ≤ line.length && line.length ≤ 64

/-- The names that renames end up with are well formed. -/
def charsetIssues (winners : Winners) : List Issue :=
  winners.filterMap fun (slot, override) =>
    match slot.op, override.value with
    | .setName, .str name =>
      if nameCharset name then none else some ⟨.nameCharset, some .setName, some slot.tool, none⟩
    | _, _ => none

/-- The wire name of a tool under some winners. -/
def effectiveName (winners : Winners) (name : String) : String :=
  match winners.lookup ⟨.str name, .setName, none⟩ with
  | some override => Overrides.writeName name override
  | none => name

/-- `effective_names/3`: the base names that are kept, each once, and their wire names. -/
def effectiveNames (settings : Settings) (names : List String) (winners : Winners) :
    List (String × String) :=
  (names.dedup.filter (Custom.keeps settings)).map fun name => (name, effectiveName winners name)

/-- The wire names that several tools have, each reported with the first of them. -/
def collisionIssues (effective : List (String × String)) : List Issue :=
  ((effective.map Prod.snd).dedup.filter fun wire => 1 < (effective.map Prod.snd).count wire).map
    fun wire => ⟨.nameCollision, some .setName,
      (effective.find? fun row => row.2 == wire).map fun row => .str row.1, none⟩

/-- Names that are malformed or taken twice. -/
def nameIssues (settings : Settings) (names : List String) (winners : Winners) : List Issue :=
  charsetIssues winners ++ collisionIssues (effectiveNames settings names winners)

/-! ## The check -/

/-- `Validator.compile/3`, without its warnings. -/
def compile (toolset : Custom) (specs : List Spec) (context : List Layer) : List Issue :=
  let names := specs.map fun spec => spec.definition.name
  let folded := Merge.fold (Custom.staticLayer toolset.toSettings :: context)
  let winners := match folded with
    | .ok winners => winners
    | .error _ => []
  let foldIssues := match folded with
    | .ok _ => []
    | .error issues => issues
  foldIssues ++ cycleIssues toolset.base [toolset.slug] ++
    unknownToolIssues toolset.toSettings names ++ toolOpIssues toolset.toSettings specs ++
    nameIssues toolset.toSettings names winners

end Validator

end NoizuMcp.Toolset
