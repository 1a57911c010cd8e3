import NoizuMcp.Protocol.Peer

/-!
# What a listing says about a tool

`Types.Tool.to_map/2` writes a tool as the JSON object of `tools/list`. A title or a
description may be a set of texts, of which `Description.resolve/2` takes one by the verbosity,
the runner and the model of a `RenderCtx`; the descriptions of the fields of a schema likewise
(`Fields.to_json_schema/2`). Prompts, resources and resource templates hold plain texts.
-/

set_option autoImplicit false

namespace NoizuMcp.Server.Wire

open Protocol (Json Fields)

open Protocol.Implementation (putUnlessNil)

/-! ## Choosing a text -/

/-- The verbosity where neither server nor request names one. -/
def builtinVerbosity : Int := 5

/-- `%RenderCtx{}`. The runner and the model are the texts that `norm/1` makes of them, and a
verbosity that is not an integer counts as none. -/
structure RenderCtx where
  verbosity : Option Int := none
  runner : Option String := none
  model : Option String := none
  defaultVerbosity : Option Int := some builtinVerbosity
  deriving DecidableEq

/-- Verbosities go from `0` to `9`. -/
def clamp (v : Int) : Int := min (max v 0) 9

/-- The caller's verbosity, or the server's. -/
def RenderCtx.effectiveVerbosity (ctx : RenderCtx) : Int :=
  match ctx.verbosity, ctx.defaultVerbosity with
  | some v, _ => clamp v
  | none, some v => clamp v
  | none, none => builtinVerbosity

/-- `*` or a name. -/
inductive Provider where
  | any
  | named (name : Option String)
  deriving DecidableEq

/-- Which models of a provider a rule is for. -/
inductive ModelMatcher where
  | any
  | exact (model : Option String)
  | list (models : List (Option String))
  deriving DecidableEq

/-- A map from levels. -/
abbrev Levels := List (Int × String)

/-- The descriptions for one provider and model. -/
structure RunnerRule where
  provider : Provider
  model : ModelMatcher
  levels : Levels := []
  defaultTag : Option String := none
  deriving DecidableEq

/-- `%Description{}`. -/
structure Description where
  levels : Levels := []
  default : Option String := none
  defaultVerbosity : Option Int := none
  variants : List (String × String) := []
  verbosityMap : Levels := []
  runners : List RunnerRule := []
  deriving DecidableEq

/-- Whether a level is at most as far from the requested one as another; of two that are
equally far the lower is nearer. -/
def nearer (requested a b : Int) : Bool :=
  (a - requested).natAbs < (b - requested).natAbs ||
    ((a - requested).natAbs == (b - requested).natAbs && a ≤ b)

/-- The text of the nearest level. -/
def gapFill (requested : Int) : Levels → Option String
  | [] => none
  | entry :: rest =>
    some (rest.foldl (fun best next =>
      if nearer requested best.1 next.1 then best else next) entry).2

/-- The text of the level, or of the nearest one. -/
def lookupLevel (map : Levels) (level : Int) : Option String :=
  (map.lookup level).or (gapFill level map)

/-- The caller's level, or the description's own. -/
def Description.effectiveLevel (desc : Description) (ctx : RenderCtx) : Int :=
  clamp (match ctx.verbosity, desc.defaultVerbosity with
    | some v, _ => v
    | none, some v => v
    | none, none => ctx.effectiveVerbosity)

/-- `rule_matches?/2`. -/
def RunnerRule.matches (rule : RunnerRule) (ctx : RenderCtx) : Bool :=
  (match rule.provider with
    | .any => true
    | .named name => name == ctx.runner) &&
  (match rule.model with
    | .any => true
    | .exact model => model == ctx.model
    | .list models => models.contains ctx.model)

/-- `rule_specificity/1`. -/
def RunnerRule.specificity (rule : RunnerRule) : Nat × Nat :=
  (match rule.model with
    | .exact _ => 2
    | .list _ => 1
    | .any => 0,
   match rule.provider with
    | .any => 0
    | .named _ => 1)

/-- `best_rule/2`: of several most specific rules the first. -/
def bestRule (rules : List RunnerRule) (ctx : RenderCtx) : Option RunnerRule :=
  match rules.filter (·.matches ctx) with
  | [] => none
  | rule :: rest =>
    some (rest.foldl (fun best next =>
      if best.specificity.1 < next.specificity.1 ||
          (best.specificity.1 == next.specificity.1 &&
            best.specificity.2 < next.specificity.2)
      then next else best) rule)

/-- `rule_tag/2`. -/
def RunnerRule.tag (rule : RunnerRule) (level : Int) : Option String :=
  if rule.levels.isEmpty then rule.defaultTag else lookupLevel rule.levels level

/-- The text of a tag. -/
def Description.variant (desc : Description) (tag : String) : Option String :=
  desc.variants.lookup tag

/-- `resolve/2` on a set of texts. -/
def Description.choose (desc : Description) (ctx : RenderCtx) : Option String :=
  let level := desc.effectiveLevel ctx
  (((bestRule desc.runners ctx).bind (·.tag level)).bind desc.variant).or
    (((lookupLevel desc.verbosityMap level).bind desc.variant).or
      ((lookupLevel desc.levels level).or desc.default))

/-- A title or a description: none, one text, or a set of texts. -/
inductive Described where
  | absent
  | plain (text : String)
  | tailored (desc : Description)
  deriving DecidableEq

/-- The text for the caller. -/
def Described.resolve (ctx : RenderCtx) : Described → Option String
  | .absent => none
  | .plain text => some text
  | .tailored desc => desc.choose ctx

/-! ## Schemas of declared fields -/

/-- The scalar types that need no options. -/
inductive Basic where
  | string
  | integer
  | number
  | boolean
  deriving DecidableEq

/-- The options of a field. An option that is there with the value `nil` is `some .null`;
`default` is the value after `encode_default/1`. -/
structure FieldOpts where
  required : Bool := false
  minLength : Option Json := none
  maxLength : Option Json := none
  pattern : Option Json := none
  format : Option Json := none
  min : Option Json := none
  max : Option Json := none
  description : Described := .absent
  default : Option Json := none

/-- `%Field{}`, as its constructor function accepts it. -/
inductive Field where
  | basic (name : String) (type : Basic) (opts : FieldOpts)
  | enum (name : String) (values : List String) (opts : FieldOpts)
  | object (name : String) (children : List Field) (opts : FieldOpts)
  | objects (name : String) (children : List Field) (opts : FieldOpts)
  | array (name : String) (inner : Basic) (opts : FieldOpts)

/-- The name under which the field is declared. -/
def Field.name : Field → String
  | .basic name _ _ | .enum name _ _ | .object name _ _ | .objects name _ _ | .array name _ _ =>
    name

/-- The options of a field of any kind. -/
def Field.opts : Field → FieldOpts
  | .basic _ _ opts | .enum _ _ opts | .object _ _ opts | .objects _ _ opts | .array _ _ opts =>
    opts

/-- An optional entry of a map. -/
def putOpt (key : String) : Option Json → Fields
  | some value => [(key, value)]
  | none => []

/-- A text that is there. -/
def optStr : Option String → Json
  | some text => .str text
  | none => .null

/-- `apply_common_opts/3`: what it adds. -/
def commonOpts (opts : FieldOpts) (ctx : RenderCtx) : Fields :=
  putUnlessNil "description" (optStr (opts.description.resolve ctx)) ++ putOpt "default"
    opts.default

/-- `scalar_schema/3` of the types without options. -/
def scalarSchema (type : Basic) (opts : FieldOpts) (ctx : RenderCtx) : Json :=
  .obj (match type with
    | .string =>
      [("type", .str "string")] ++ putOpt "minLength" opts.minLength ++
        putOpt "maxLength" opts.maxLength ++ putOpt "pattern" opts.pattern ++
        putOpt "format" opts.format ++ commonOpts opts ctx
    | .integer =>
      [("type", .str "integer")] ++ putOpt "minimum" opts.min ++ putOpt "maximum" opts.max ++
        commonOpts opts ctx
    | .number =>
      [("type", .str "number")] ++ putOpt "minimum" opts.min ++ putOpt "maximum" opts.max ++
        commonOpts opts ctx
    | .boolean => [("type", .str "boolean")] ++ commonOpts opts ctx)

/-- `apply_array_opts/3` on a schema of the items. -/
def arraySchema (items : Json) (opts : FieldOpts) (ctx : RenderCtx) : Json :=
  .obj ([("type", .str "array"), ("items", items)] ++ putOpt "minItems" opts.min ++
    putOpt "maxItems" opts.max ++ commonOpts opts ctx)

/-- The names of the required fields. -/
def requiredNames (fields : List Field) : List Json :=
  (fields.filter (·.opts.required)).map fun field => .str field.name

/-- The map that `to_json_schema/2` builds from the properties. -/
def objectSchema (properties : Fields) (required : List Json) : Fields :=
  [("type", .str "object"), ("properties", .obj properties)] ++
    if required.isEmpty then [] else [("required", .arr required)]

mutual

/-- The schema of a field, by its kind. -/
def fieldSchema (ctx : RenderCtx) : Field → Json
  | .basic _ type opts => scalarSchema type opts ctx
  | .enum _ values opts =>
    .obj ([("type", .str "string"), ("enum", .arr (values.map .str))] ++ commonOpts opts ctx)
  | .object _ children opts =>
    .obj (objectSchema (propertySchemas ctx children) (requiredNames children) ++
      commonOpts opts ctx)
  | .objects _ children opts =>
    arraySchema (.obj (objectSchema (propertySchemas ctx children) (requiredNames children)))
      opts ctx
  | .array _ inner opts => arraySchema (scalarSchema inner {} ctx) opts ctx

/-- The properties of an object. Of two fields of one name the later counts, so an earlier
one is left out. -/
def propertySchemas (ctx : RenderCtx) : List Field → Fields
  | [] => []
  | field :: rest =>
    if rest.any (·.name == field.name) then propertySchemas ctx rest
    else (field.name, fieldSchema ctx field) :: propertySchemas ctx rest

end

/-- The schema of an input or an output with the fields. -/
def toJsonSchema (fields : List Field) (ctx : RenderCtx) : Json :=
  .obj (objectSchema (propertySchemas ctx fields) (requiredNames fields))

/-! ## Tools -/

/-- A key of an Elixir map. Both kinds are the same text in JSON. -/
inductive Key where
  | atom (name : String)
  | text (name : String)
  deriving DecidableEq

def Key.print : Key → String
  | .atom name | .text name => name

/-- The annotations of a tool: none, a map, or a keyword list. -/
inductive Annotations where
  | absent
  | map (entries : List (Key × Json))
  | keywords (entries : List (String × Json))

/-- `@annotation_keys`. -/
def annotationKeys : List (String × String) :=
  [("title", "title"), ("read_only_hint", "readOnlyHint"), ("destructive_hint", "destructiveHint"),
    ("idempotent_hint", "idempotentHint"), ("open_world_hint", "openWorldHint")]

/-- The keys of a keyword list, renamed; a key that is unknown raises. Of two entries of one
key the later counts. -/
def encodeKeywords : List (String × Json) → Option (List (Key × Json))
  | [] => some []
  | (key, value) :: rest =>
    match annotationKeys.lookup key, encodeKeywords rest with
    | some wireKey, some entries =>
      if rest.any (·.1 == key) then some entries else some ((.text wireKey, value) :: entries)
    | _, _ => none

/-- `encode_annotations/1`: `none` when it raises, and no map for no annotations. -/
def encodeAnnotations : Annotations → Option (Option (List (Key × Json)))
  | .absent => some none
  | .map entries => some (some entries)
  | .keywords entries => (encodeKeywords entries).map some

/-- `%Types.Tool{}`. -/
structure Tool where
  name : String
  title : Described := .absent
  description : Described := .absent
  inputSchema : Json := .obj [("type", .str "object")]
  outputSchema : Json := .null
  inputFields : Option (List Field) := none
  outputFields : Option (List Field) := none
  annotations : Annotations := .absent
  icons : Json := .null
  metaMap : Json := .null

/-- `render_input_schema/2` and `render_output_schema/2`. -/
def renderSchema (fields : Option (List Field)) (schema : Json) (ctx : RenderCtx) : Json :=
  match fields with
  | some fields => toJsonSchema fields ctx
  | none => schema

/-- A map as JSON. -/
def annotationsJson : Option (List (Key × Json)) → Json
  | some entries => .obj (entries.map fun entry => (entry.1.print, entry.2))
  | none => .null

/-- The map that `Tool.to_map/2` builds: the annotations as Elixir has them, and the other
fields. -/
structure ToolMap where
  name : String
  inputSchema : Json
  title : Json
  description : Json
  outputSchema : Json
  annotations : Option (List (Key × Json))
  icons : Json
  metaMap : Json
  deriving Inhabited

/-- `Tool.to_map/2`; `none` when it raises. -/
def Tool.toMap (ctx : RenderCtx) (tool : Tool) : Option ToolMap :=
  (encodeAnnotations tool.annotations).map fun annotations =>
    { name := tool.name
      inputSchema := renderSchema tool.inputFields tool.inputSchema ctx
      title := optStr (tool.title.resolve ctx)
      description := optStr (tool.description.resolve ctx)
      outputSchema := renderSchema tool.outputFields tool.outputSchema ctx
      annotations := annotations
      icons := tool.icons
      metaMap := tool.metaMap }

/-! ## Prompts, resources and resource templates -/

/-- An argument of a prompt. -/
structure PromptArgument where
  name : Json
  title : Json := .null
  description : Json := .null
  required : Bool := false

/-- A field that is there unless it is `nil` or `false`. -/
def putIf (key : String) (value : Json) : Fields :=
  if value = .null ∨ value = .bool false then [] else [(key, value)]

def PromptArgument.toMap (argument : PromptArgument) : Fields :=
  [("name", argument.name)] ++ putIf "title" argument.title ++
    putIf "description" argument.description ++ putIf "required" (.bool argument.required)

/-- A prompt, as a host declares it. -/
structure Prompt where
  name : Json
  title : Json := .null
  description : Json := .null
  arguments : List PromptArgument := []
  icons : Json := .null
  metaMap : Json := .null

def Prompt.toMap (prompt : Prompt) : Fields :=
  [("name", prompt.name)] ++ putUnlessNil "title" prompt.title ++
    putUnlessNil "description" prompt.description ++
    (if prompt.arguments.isEmpty then []
      else [("arguments", .arr (prompt.arguments.map fun argument => .obj argument.toMap))]) ++
    putUnlessNil "icons" prompt.icons ++ putUnlessNil "_meta" prompt.metaMap

/-- A resource, as a host declares it. -/
structure Resource where
  uri : Json
  name : Json := .null
  title : Json := .null
  description : Json := .null
  mimeType : Json := .null
  size : Json := .null
  annotations : Json := .null
  icons : Json := .null
  metaMap : Json := .null

/-- The uri stands in for a missing name. -/
def Resource.toMap (resource : Resource) : Fields :=
  [("uri", resource.uri), ("name", Json.orElse (some resource.name) resource.uri)] ++
    putUnlessNil "title" resource.title ++ putUnlessNil "description" resource.description ++
    putUnlessNil "mimeType" resource.mimeType ++ putUnlessNil "size" resource.size ++
    putUnlessNil "annotations" resource.annotations ++ putUnlessNil "icons" resource.icons ++
    putUnlessNil "_meta" resource.metaMap

/-- A resource template, as a host declares it. -/
structure ResourceTemplate where
  uriTemplate : Json
  name : Json := .null
  title : Json := .null
  description : Json := .null
  mimeType : Json := .null
  annotations : Json := .null
  icons : Json := .null
  metaMap : Json := .null

def ResourceTemplate.toMap (template : ResourceTemplate) : Fields :=
  [("uriTemplate", template.uriTemplate),
      ("name", Json.orElse (some template.name) template.uriTemplate)] ++
    putUnlessNil "title" template.title ++ putUnlessNil "description" template.description ++
    putUnlessNil "mimeType" template.mimeType ++
    putUnlessNil "annotations" template.annotations ++ putUnlessNil "icons" template.icons ++
    putUnlessNil "_meta" template.metaMap

end NoizuMcp.Server.Wire
