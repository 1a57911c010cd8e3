import Mathlib.Data.List.Basic
import NoizuMcp.Toolset.Term

/-!
# Override ops

The closed vocabulary of overrides (`Noizu.MCP.Toolset.Override`) and the function
that makes them real on the spec of one tool (`Noizu.MCP.Toolset.Overrides.apply/3`).
Every op is judged against the spec its author started from; only if all of them pass
are they applied, one after the other.

Three things about a spec decide who sees and calls the tool: its wire name, whether
it is hidden and whether it is callable. Each is written by one op only, so each can be
read off the ops of one kind (`apply_name`, `apply_visible`, `apply_callable`).
-/

set_option autoImplicit false

namespace NoizuMcp.Toolset

/-! ## Ops, layers and issues -/

/-- `Override.op`; an atom outside the vocabulary is `other`. -/
inductive Op where
  | setName
  | setDescription
  | setTitle
  | setVisible
  | setCallable
  | setInputSchema
  | setArgDescription
  | pruneEnum
  | hideField
  | renameField
  | pinDefault
  | other (name : String)
  deriving DecidableEq, Repr

/-- `Override.field_op?/1`. -/
def Op.isField : Op → Bool
  | .setArgDescription | .pruneEnum | .hideField | .renameField | .pinDefault => true
  | _ => false

/-- The identity under which a layer speaks. A host may give its layers any. -/
inductive LayerId where
  | static (slug : String)
  | persisted (grant : String)
  | negotiation (id : String)
  | acl (provider : String)
  | host (id : Term)
  deriving DecidableEq

/-- `%Override{}`. -/
structure Override where
  op : Op
  target : Term := .nil
  value : Term := .nil
  weight : Int := 100
  layer : Option LayerId := none
  inherits : Bool := false
  tool : Option String := none
  deriving DecidableEq

/-- A member of an op list: an override, or whatever else its author put there. -/
inductive LayerOp where
  | override (override : Override)
  | other (term : Term)
  deriving DecidableEq

/-- `%Layer{}`. -/
structure Layer where
  id : LayerId
  weight : Int
  ops : List LayerOp
  deriving DecidableEq

/-- The `code` of an issue. -/
inductive IssueCode where
  | weightConflict
  | invalidOp
  | unknownTool
  | invalidValue
  | inputSchemaOnDslTool
  | fieldOpOnRawSchema
  | unknownField
  | renameCollision
  | notEnum
  | defaultNotSerializable
  | unknownOp
  | cycle
  | unknownBase
  | rawSchemaOp
  | renameTargetMissing
  | pruneNotSubset
  | pinDefaultInvalid
  | nameCharset
  | nameCollision
  deriving DecidableEq, Repr

/-- `%Validator.Issue{}`: what is wrong, with which op, on which tool and field. -/
structure Issue where
  code : IssueCode
  op : Option Op := none
  tool : Option Term := none
  field : Option Term := none
  deriving DecidableEq

/-! ## Specs and entries -/

/-- The type of a field; objects and arrays keep their shape as a term. -/
inductive FieldType where
  | string
  | integer
  | number
  | boolean
  | enum (values : List Term)
  | shaped (shape : Term)
  deriving DecidableEq

/-- `%Field{}` with the options that overrides and cast plans read. -/
structure Field where
  name : String
  type : FieldType
  default : Term := .nil
  wireKey : Option String := none
  deriving DecidableEq

/-- One instruction of a cast plan. -/
structure PlanEntry where
  key : String
  name : String
  type : FieldType
  default : Term
  wireKey : Option String
  deriving DecidableEq

/-- `%Types.Tool{}`; `rest` is the output schema, the annotations and the icons, which
nothing here reads. -/
structure Tool where
  name : String
  title : Term := .nil
  description : Term := .nil
  inputSchema : Term := .map [("type", .str "object")]
  inputFields : Option (List Field) := none
  metaMap : Option TermMap := none
  rest : Term := .nil
  deriving DecidableEq

/-- `%Spec{}`. -/
structure Spec where
  module : String
  function : String
  arity : Nat
  definition : Tool
  castPlan : Option (List PlanEntry) := none
  outputSchema : Term := .nil
  hidden : Bool := false
  callable : Bool := true
  deriving DecidableEq

/-- Why an entry is not offered. -/
inductive Reason where
  | hiddenBySpec
  | layer (id : LayerId)
  | negotiationRequired (missing : List Term)
  deriving DecidableEq

/-- `%Entry{}`. -/
structure Entry where
  definition : Tool
  inputSchema : Term
  castPlan : Option (List PlanEntry)
  visible : Bool
  callable : Bool
  reason : Option Reason
  deriving DecidableEq

/-- `Behaviour.entry_for/1`. -/
def entryFor (spec : Spec) : Entry where
  definition := spec.definition
  inputSchema := spec.definition.inputSchema
  castPlan := spec.castPlan
  visible := !spec.hidden
  callable := spec.callable
  reason := if spec.hidden then some .hiddenBySpec else none

/-- `Fields.to_cast_plan/1`. -/
def toCastPlan (fields : List Field) : List PlanEntry :=
  fields.map fun field => ⟨field.name, field.name, field.type, field.default, field.wireKey⟩

namespace Overrides

/-! ## Validation -/

/-- `issue/5` of an override that is judged on a spec. -/
def issue (code : IssueCode) (override : Override) (spec : Spec) (field : Option Term := none) :
    Issue :=
  ⟨code, some override.op, some (.str spec.definition.name), field⟩

/-- `field_defined?/2`: a field name is an atom. -/
def fieldDefined (fields : List Field) (target : Term) : Bool :=
  fields.any fun field => .atom field.name == target

/-- The target is a field with an enumeration. -/
def enumField (fields : List Field) (target : Term) : Bool :=
  fields.any fun field =>
    .atom field.name == target && match field.type with
      | .enum _ => true
      | _ => false

def isText : Term → Bool
  | .str _ => true
  | _ => false

def isBoolean : Term → Bool
  | .bool _ => true
  | _ => false

/-- A rename has a text, and meets no other field's name. -/
def renameIssues (override : Override) (spec : Spec) (fields : List Field)
    (all : List Override) : List Issue :=
  if !isText override.value then
    [issue .invalidValue override spec (some override.target)]
  else if fields.any fun field =>
      .atom field.name != override.target && .str field.name == override.value then
    [issue .renameCollision override spec (some override.target)]
  else if 1 < all.countP fun other =>
      other.op == .renameField && other.value == override.value then
    [issue .renameCollision override spec (some override.target)]
  else []

/-- The value of a tool-level op is of its kind. -/
def toolValueIssues (override : Override) (spec : Spec) : List Issue :=
  match override.op with
  | .setName | .setDescription =>
    if isText override.value then [] else [issue .invalidValue override spec]
  | .setTitle =>
    if isText override.value || override.value == .nil then []
    else [issue .invalidValue override spec]
  | .setVisible | .setCallable =>
    if isBoolean override.value then [] else [issue .invalidValue override spec]
  | .setInputSchema =>
    if spec.definition.inputFields.isSome then [issue .inputSchemaOnDslTool override spec]
    else match override.value with
      | .map _ => []
      | _ => [issue .invalidValue override spec]
  | _ => []

/-- The value of a field-level op suits a field that is defined. -/
def fieldValueIssues (override : Override) (spec : Spec) (fields : List Field)
    (all : List Override) : List Issue :=
  match override.op with
  | .renameField => renameIssues override spec fields all
  | .pruneEnum =>
    if !enumField fields override.target then
      [issue .notEnum override spec (some override.target)]
    else match override.value with
      | .list _ => []
      | _ => [issue .invalidValue override spec (some override.target)]
  | .pinDefault =>
    if override.value.encodable then []
    else [issue .defaultNotSerializable override spec (some override.target)]
  | .setArgDescription =>
    if isText override.value || override.value == .nil then []
    else [issue .invalidValue override spec (some override.target)]
  | _ => []

/-- The issues of an override by its operation. -/
def validateOp (spec : Spec) (all : List Override) (override : Override) : List Issue :=
  match override.op with
  | .other _ => [issue .unknownOp override spec]
  | .setName | .setDescription | .setTitle | .setVisible | .setCallable | .setInputSchema =>
    if override.target ≠ .str spec.definition.name then [issue .unknownTool override spec]
    else toolValueIssues override spec
  | .setArgDescription | .pruneEnum | .hideField | .renameField | .pinDefault =>
    match spec.definition.inputFields with
    | none => [issue .fieldOpOnRawSchema override spec]
    | some fields =>
      if !fieldDefined fields override.target then
        [issue .unknownField override spec (some override.target)]
      else fieldValueIssues override spec fields all

/-! ## Materialization -/

/-- `update_property/3` on the schema of a tool with fields. -/
def updateProperty (key : String) (f : TermMap → TermMap) (schema : TermMap) : TermMap :=
  schema.update "properties" (.map []) fun
    | .map properties => .map (TermMap.update key (.map []) (fun
        | .map property => .map (f property)
        | property => property) properties)
    | properties => properties

/-- `update_required/2`: an emptied list disappears. -/
def updateRequired (f : List Term → List Term) (schema : TermMap) : TermMap :=
  match schema.lookup "required" with
  | some (.list required) =>
    match f required with
    | [] => schema.delete "required"
    | rest => schema.put "required" (.list rest)
  | _ => schema

/-- Atoms are written as texts. -/
def encodeDefault : Term → Term
  | .atom name => .str name
  | value => value

/-- The texts of the values an enum is pruned of. -/
def dropped : Term → List String
  | .list values => values.map Term.text
  | _ => []

/-- What an operation on a field does to the schema. -/
def fieldOpSchema (op : Op) (field value : Term) (schema : TermMap) : TermMap :=
  let key := field.text
  match op with
  | .renameField =>
    let renamed := schema.update "properties" (.map []) fun
      | .map properties =>
        match properties.lookup key with
        | some property => .map (TermMap.put value.text property (TermMap.delete key properties))
        | none => .map properties
      | properties => properties
    updateRequired (·.map fun name => if name = .str key then value else name) renamed
  | .pruneEnum =>
    updateProperty key (fun property =>
      match property.lookup "enum" with
      | some (.list enum) =>
        property.put "enum" (.list (enum.filter fun item => item ∉ (dropped value).map .str))
      | _ => property) schema
  | .setArgDescription =>
    updateProperty key (fun property =>
      if value = .nil then property.delete "description"
      else property.put "description" value) schema
  | .hideField =>
    let hidden := schema.update "properties" (.map []) fun
      | .map properties => .map (TermMap.delete key properties)
      | properties => properties
    updateRequired (·.erase (.str key)) hidden
  | .pinDefault => updateProperty key (·.put "default" (encodeDefault value)) schema
  | _ => schema

/-- What an operation on a field does to the plan for arguments. -/
def fieldOpPlan (op : Op) (field value : Term) (plan : List PlanEntry) : List PlanEntry :=
  plan.map fun entry =>
    if entry.key ≠ field.text then entry
    else match op with
      | .renameField => { entry with wireKey := some value.text }
      | .pinDefault => { entry with default := value }
      | .pruneEnum =>
        match entry.type with
        | .enum enum =>
          { entry with type := .enum (enum.filter fun item => item.text ∉ dropped value) }
        | _ => entry
      | _ => entry

/-- The plan of a tool, or the one of its declared fields. -/
def planFor (spec : Spec) : List PlanEntry :=
  match spec.castPlan with
  | some plan => plan
  | none => toCastPlan (spec.definition.inputFields.getD [])

/-- `materialize_op/2`. The values are of the kinds that validation has checked. -/
def materializeOp (spec : Spec) (override : Override) : Spec :=
  match override.op, override.value with
  | .setName, .str name => { spec with definition := { spec.definition with name := name } }
  | .setDescription, description =>
    { spec with definition := { spec.definition with description := description } }
  | .setTitle, title => { spec with definition := { spec.definition with title := title } }
  | .setVisible, .bool visible => { spec with hidden := !visible }
  | .setCallable, .bool callable => { spec with callable := callable }
  | .setInputSchema, schema =>
    { spec with definition := { spec.definition with inputSchema := schema, inputFields := none } }
  | .setArgDescription, value | .pruneEnum, value | .hideField, value | .renameField, value
  | .pinDefault, value =>
    { spec with
      castPlan := some (fieldOpPlan override.op override.target value (planFor spec))
      definition := { spec.definition with
        inputSchema := match spec.definition.inputSchema with
          | .map schema => .map (fieldOpSchema override.op override.target value schema)
          | schema => schema
        inputFields := none } }
  | _, _ => spec

/-- `Overrides.apply/3`. -/
def apply (spec : Spec) (ops : List Override) : Except (List Issue) Spec :=
  match ops.flatMap (validateOp spec ops) with
  | [] => .ok (ops.foldl materializeOp spec)
  | issues => .error issues

/-! ## What the ops make of a spec -/

/-- The value of an op that states a flag, the flag so far if it states none. -/
def writeFlag (flag : Bool) (override : Override) : Bool :=
  match override.value with
  | .bool value => value
  | _ => flag

/-- The value of an op that states a name, the name so far if it states none. -/
def writeName (name : String) (override : Override) : String :=
  match override.value with
  | .str value => value
  | _ => name

/-- What one op alone writes can be read off the ops of that kind. -/
theorem foldl_reads {β : Type} (read : Spec → β) (op : Op) (write : β → Override → β)
    (hstep : ∀ spec override, read (materializeOp spec override) =
      if override.op = op then write (read spec) override else read spec)
    (ops : List Override) (spec : Spec) :
    read (ops.foldl materializeOp spec) =
      (ops.filter fun override => override.op = op).foldl write (read spec) := by
  induction ops generalizing spec with
  | nil => rfl
  | cons override _ ih =>
    rw [List.foldl_cons, ih, hstep]
    by_cases hop : override.op = op
    · simp [hop]
    · simp [hop]

theorem materializeOp_visible (spec : Spec) (override : Override) :
    (!(materializeOp spec override).hidden) =
      if override.op = .setVisible then writeFlag (!spec.hidden) override else !spec.hidden := by
  obtain ⟨op, target, value, weight, layer, inherits, tool⟩ := override
  cases op <;> cases value <;> simp [materializeOp, writeFlag]

theorem materializeOp_callable (spec : Spec) (override : Override) :
    (materializeOp spec override).callable =
      if override.op = .setCallable then writeFlag spec.callable override else spec.callable := by
  obtain ⟨op, target, value, weight, layer, inherits, tool⟩ := override
  cases op <;> cases value <;> simp [materializeOp, writeFlag]

theorem materializeOp_name (spec : Spec) (override : Override) :
    (materializeOp spec override).definition.name =
      if override.op = .setName then writeName spec.definition.name override
      else spec.definition.name := by
  obtain ⟨op, target, value, weight, layer, inherits, tool⟩ := override
  cases op <;> cases value <;> simp [materializeOp, writeName]

variable {spec final : Spec} {ops : List Override}

section

variable (h : apply spec ops = .ok final)

include h

theorem apply_eq_ok : ops.foldl materializeOp spec = final := by
  unfold apply at h
  split at h
  · exact Except.ok.inj h
  · cases h

theorem apply_visible : (!final.hidden) =
      (ops.filter fun override => override.op = .setVisible).foldl writeFlag (!spec.hidden) := by
  rw [← apply_eq_ok h]
  exact foldl_reads (fun spec => !spec.hidden) .setVisible writeFlag materializeOp_visible ops spec

theorem apply_callable : final.callable =
      (ops.filter fun override => override.op = .setCallable).foldl writeFlag spec.callable := by
  rw [← apply_eq_ok h]
  exact foldl_reads Spec.callable .setCallable writeFlag materializeOp_callable ops spec

theorem apply_name : final.definition.name =
      (ops.filter fun override => override.op = .setName).foldl writeName spec.definition.name := by
  rw [← apply_eq_ok h]
  exact foldl_reads (fun spec => spec.definition.name) .setName writeName materializeOp_name ops
    spec

end

end Overrides

end NoizuMcp.Toolset
