import NoizuMcp.Server.Catalog
import NoizuMcp.Server.SqlColumns

/-!
# The relations of a server

Every relation that a server projects into SQL (`SQL.Schema`): the derived ones, one for each
effective tool, and the datasets. `sql/scan` and `sql/modify` find a relation by its name and act
on the source that its descriptor names (`Features.SQL`). The callbacks behind the sources, the
toolset and the access check of datasets are parameters; what a write reaches is part of its
result (`Reached`).
-/

set_option autoImplicit false

namespace NoizuMcp.Relations

open NoizuMcp.Server Server.Wire

open Protocol (Json Fields RpcError)

open Server.Sql (Opts RowMap Handled Column field)

open Catalog (Ctx Callback Materialized Qual QualOp Kind Host crashed)

/-! ## Datasets -/

/-- The three ways to modify a relation. -/
inductive Op where
  | insert
  | update
  | delete
  deriving DecidableEq

def Op.name : Op → String
  | .insert => "insert"
  | .update => "update"
  | .delete => "delete"

/-- What a callback of a dataset comes to: a result, an error, another value as `inspect/1`
prints it, or an exception as its text. -/
inductive Outcome (α : Type) where
  | ok (value : α)
  | error (error : RpcError)
  | other (printed : String)
  | raised (text : String)

/-- The options of `scan/3`. -/
structure DatasetOpts where
  quals : List Qual
  opts : Opts

/-- A dataset module. `writable` is the key of `info/0` if it is there; a write callback that is
not defined is `none`. -/
structure Dataset (δ : Type) where
  infoName : String
  writable : Option Bool := none
  primaryKey : List String := []
  columns : List Column
  scan : Ctx δ → DatasetOpts → Outcome (List RowMap × Json)
  insert : Option (List Json → Ctx δ → Outcome (List Json)) := none
  update : Option (List Qual → Fields → Ctx δ → Outcome (List Json)) := none
  delete : Option (List Qual → Ctx δ → Outcome Nat) := none

variable {δ : Type}

/-- `__mcp_dataset__(:ops)`. -/
def Dataset.ops (dataset : Dataset δ) : List Op :=
  (if dataset.insert.isSome then [.insert] else []) ++
    (if dataset.update.isSome then [.update] else []) ++
    (if dataset.delete.isSome then [.delete] else [])

/-- The flag of `validate_info!/2`: by default whether there is a write callback. -/
def Dataset.infoWritable (dataset : Dataset δ) : Bool :=
  dataset.writable.getD !dataset.ops.isEmpty

/-- `dataset module, opts` in a server. `loadable` says whether the module could be asked for its
name when the server was compiled. -/
structure Registration (δ : Type) where
  dataset : Dataset δ
  name : Option String := none
  hidden : Bool := false
  loadable : Bool := true

/-- `dataset_name/2`. -/
def Registration.wireName (entry : Registration δ) : String :=
  entry.name.getD entry.dataset.infoName

/-- `dataset_registration_name/3`: the name the compile-time check sees, if any. -/
def Registration.checkedName (entry : Registration δ) : Option String :=
  entry.name.or (if entry.loadable then some entry.dataset.infoName else none)

/-- `@reserved`. -/
def reserved : List String :=
  ["tools", "prompts", "prompt_arguments", "prompt_messages", "completions", "resources",
    "resource_templates", "resource_contents"]

/-- `validate_datasets!/2`: the server compiles. -/
def validDatasets (entries : List (Registration δ)) : Bool :=
  (entries.filterMap (·.checkedName)).all (!reserved.contains ·) &&
    decide (entries.filterMap (·.checkedName)).Nodup

/-! ## Servers -/

/-- A value that a handler returns. The keys of its maps may be atoms, which a row does not
carry although JSON prints them like texts. -/
inductive Value where
  | null
  | bool (b : Bool)
  | int (n : Int)
  | float (q : Rat)
  | str (s : String)
  | arr (items : List Value)
  | map (entries : List (Key × Value))

mutual

/-- The value as JSON. -/
def Value.toJson : Value → Json
  | .null => .null
  | .bool b => .bool b
  | .int n => .int n
  | .float q => .float q
  | .str s => .str s
  | .arr items => .arr (itemsJson items)
  | .map entries => .obj (entriesJson entries)

def itemsJson : List Value → List Json
  | [] => []
  | item :: rest => item.toJson :: itemsJson rest

def entriesJson : List (Key × Value) → Fields
  | [] => []
  | (key, value) :: rest => (key.print, value.toJson) :: entriesJson rest

end

/-- `%ToolResult{}`: the content as it is written, the structured content, and the flag. -/
structure ToolResult where
  content : List Json
  structured : Option Value := none
  isError : Bool := false

/-- A tool as `Toolset.resolve/4` gives it: which arguments pass its schema, the result for the
others, and what its handler comes to, after `normalize/2` and the rescue of `invoke_tool/4`. -/
structure Callable where
  accepts : Fields → Bool
  rejected : Fields → ToolResult
  run : Fields → Except RpcError ToolResult

/-- A rendered prompt: its messages and its description. -/
structure Rendered where
  messages : List Json
  description : Json := .null

/-- What a completion is for. -/
inductive Ref where
  | prompt (name : String)
  | resourceTemplate (uri : String)
  deriving DecidableEq

/-- What `completion/complete` answers with. -/
structure Completion where
  values : List Json
  total : Json := .null
  hasMore : Bool := false

/-- What a host's server module offers: the composed tools and its callbacks. -/
structure Server (δ : Type) where
  catalog : Ctx δ → Materialized
  handleListTools : Callback δ Tool := none
  handleListPrompts : Callback δ Prompt := none
  handleListResources : Callback δ Resource := none
  handleListResourceTemplates : Callback δ ResourceTemplate := none
  resolve : String → Ctx δ → Except RpcError Callable
  getPrompt : String → Json → Ctx δ → Except RpcError Rendered
  readResource : String → Ctx δ → Except RpcError (List Json)
  complete : Ref → String → String → Ctx δ → Except RpcError Completion
  datasets : List (Registration δ) := []
  /-- `authorize/3` of a dataset. -/
  allows : String → Ctx δ → Bool := fun _ _ => true

/-- The host, with `String.downcase/1` and the text of a float. -/
structure Platform where
  host : Host
  downcase : List Char → List Char
  float : Rat → String

/-! ## Descriptors -/

/-- The handlers that rows are read through. -/
inductive Through (δ : Type) where
  | promptMessages
  | resourceContents
  | completions
  | tool (name : String)
  | dataset (dataset : Dataset δ)

/-- Where the rows of a relation come from. -/
inductive Source (δ : Type) where
  | catalog (kind : Kind)
  | promptArguments
  | through (handler : Through δ)

/-- The kinds of relations, as the schema names them. -/
inductive RelationKind where
  | catalog
  | prompt
  | resource
  | tool
  | dataset
  deriving DecidableEq

/-- A relation descriptor. -/
structure Relation (δ : Type) where
  name : String
  kind : RelationKind
  columns : List String
  primaryKey : List String := []
  writable : Bool := false
  qualColumns : List String := []
  requiredQuals : List String := []
  sort : Bool := false
  limit : Bool := true
  tool : Option String := none
  readOnly : Option Bool := none
  source : Source δ

/-- The relations that every server has. -/
def catalogRelations : List (Relation δ) :=
  [{ name := "tools", kind := .catalog, columns := Kind.tools.columns, primaryKey := ["name"]
     qualColumns := ["name"], source := .catalog .tools },
    { name := "prompts", kind := .catalog, columns := Kind.prompts.columns, primaryKey := ["name"]
      qualColumns := ["name"], source := .catalog .prompts },
    { name := "resources", kind := .catalog, columns := Kind.resources.columns
      primaryKey := ["uri"], qualColumns := ["uri"], source := .catalog .resources },
    { name := "prompt_arguments", kind := .prompt
      columns := ["prompt", "name", "description", "required", "idx"]
      primaryKey := ["prompt", "name"], qualColumns := ["prompt", "name"]
      source := .promptArguments },
    { name := "resource_templates", kind := .resource
      columns := Kind.resourceTemplates.columns, primaryKey := ["uri_template"]
      qualColumns := ["uri_template"], source := .catalog .resourceTemplates },
    { name := "prompt_messages", kind := .prompt
      columns := ["prompt", "arguments", "idx", "role", "content_type", "text", "content",
        "description"]
      primaryKey := ["prompt", "idx"], qualColumns := ["prompt", "arguments"]
      requiredQuals := ["prompt"], limit := false, source := .through .promptMessages },
    { name := "resource_contents", kind := .resource
      columns := ["uri", "idx", "mime_type", "text", "blob", "meta"]
      primaryKey := ["uri", "idx"], qualColumns := ["uri"], requiredQuals := ["uri"]
      limit := false, source := .through .resourceContents },
    { name := "completions", kind := .prompt
      columns := ["ref", "argument_name", "argument_value", "value", "idx", "total", "has_more"]
      primaryKey := ["ref", "argument_name", "argument_value", "idx"]
      qualColumns := ["ref", "argument_name", "argument_value"]
      requiredQuals := ["ref", "argument_name", "argument_value"], limit := false
      source := .through .completions }]

/-- A character that the slug of a name keeps. -/
def identifierChar (c : Char) : Bool :=
  ('a' ≤ c && c ≤ 'z') || ('0' ≤ c && c ≤ '9') || c == '_'

/-- The other characters replaced, each run of them by one underscore; `run` says whether the
character before was one of them. -/
def slugFrom : Bool → List Char → List Char
  | _, [] => []
  | run, c :: rest =>
    if identifierChar c then c :: slugFrom false rest
    else if run then slugFrom true rest
    else '_' :: slugFrom true rest

/-- The length that PostgreSQL leaves of a name. -/
def nameBytes : Nat := 63

/-- `tool_relation_name/1`. Every character that is left takes one byte. -/
def toolRelationName (platform : Platform) (name : String) : String :=
  String.ofList (("tool_".toList ++ slugFrom false (platform.downcase name.toList)).take nameBytes)

/-- `Enum.uniq_by(columns, & &1.name)`. -/
def uniqNames : List Column → List Column
  | [] => []
  | column :: rest => column :: (uniqNames rest).filter fun other => decide
    (other.name ≠ column.name)

/-- The columns that every tool relation has. -/
def resultColumns : List Column :=
  [⟨"content", .jsonb, some "Raw tool result content"⟩,
    ⟨"is_error", .boolean, some "Tool reported an error"⟩]

/-- `List.wrap/1` of a field of a schema. -/
def wrapped : Option Json → List Json
  | none | some .null => []
  | some (.arr items) => items
  | some value => [value]

/-- The descriptor of a tool with these columns. -/
def toolDescriptor (platform : Platform) (map : ToolMap) (input output : List Column) :
    Relation δ where
  name := toolRelationName platform map.name
  kind := .tool
  columns := (uniqNames (uniqNames (input ++ output) ++ resultColumns)).map (·.name)
  writable := true
  qualColumns := input.map (·.name)
  requiredQuals := (input.map (·.name)).filter fun name =>
    (wrapped (map.inputSchema.get "required")).contains (.str name)
  limit := false
  tool := some map.name
  readOnly := some (Catalog.hint map.annotations "readOnlyHint" == .bool true)
  source := .through (.tool map.name)

/-- `tool_relation/1` of the tool as it is written in the default context; `none` when reading one
of the schemas raises. -/
def toolRelation (platform : Platform) (map : ToolMap) : Option (Relation δ) :=
  match Sql.schemaColumns platform.float map.inputSchema,
      Sql.outputColumns platform.float map.outputSchema with
  | some input, some output => some (toolDescriptor platform map input output)
  | _, _ => none

theorem toolRelation_inv {platform : Platform} {map : ToolMap} {relation : Relation δ}
    (h : toolRelation platform map = some relation) :
    ∃ input output, Sql.schemaColumns platform.float map.inputSchema = some input ∧
      Sql.outputColumns platform.float map.outputSchema = some output ∧
      relation = toolDescriptor platform map input output := by
  unfold toolRelation at h
  split at h
  case h_1 input output hinput houtput =>
    cases h
    exact ⟨input, output, hinput, houtput, rfl⟩
  case h_2 => cases h

/-- The relation of a registered dataset. -/
def datasetRelation (entry : Registration δ) : Relation δ where
  name := entry.wireName
  kind := .dataset
  columns := entry.dataset.columns.map (·.name)
  primaryKey := entry.dataset.primaryKey
  writable := entry.dataset.infoWritable && !entry.dataset.ops.isEmpty
  qualColumns := entry.dataset.columns.map (·.name)
  sort := true
  source := .through (.dataset entry.dataset)

/-- The visible tools; a failed composition has none. -/
def effectiveTools (server : Server δ) (ctx : Ctx δ) : List Tool :=
  match server.catalog ctx with
  | .entries entries => (entries.filter (·.visible)).map (·.definition)
  | .error _ | .raised _ => []

/-- `tool_relations/2`; `none` when one of them cannot be built. -/
def toolRelations (platform : Platform) (server : Server δ) (ctx : Ctx δ) :
    Option (List (Relation δ)) :=
  (effectiveTools server ctx).mapM fun tool => (tool.toMap {}).bind (toolRelation platform)

/-- The relations of the datasets; hidden ones only on request. -/
def datasetRelations (server : Server δ) (includeHidden : Bool) : List (Relation δ) :=
  (server.datasets.filter fun entry => includeHidden || !entry.hidden).map datasetRelation

/-- Every relation, in the order in which a name is looked up. -/
def relations (platform : Platform) (server : Server δ) (ctx : Ctx δ) (includeHidden : Bool) :
    Option (List (Relation δ)) :=
  (toolRelations platform server ctx).map fun tools =>
    catalogRelations ++ tools ++ datasetRelations server includeHidden

/-- The relations of the `sql/schema` payload. -/
def listed (platform : Platform) (server : Server δ) (ctx : Ctx δ) : Option (List (Relation δ)) :=
  relations platform server ctx false

/-- `fetch/3`; a descriptor that cannot be built takes every relation with it. -/
def fetch (platform : Platform) (server : Server δ) (ctx : Ctx δ) (name : String) :
    Except RpcError (Relation δ) :=
  match relations platform server ctx true with
  | none => .error crashed
  | some relations =>
    match relations.find? (·.name == name) with
    | some relation => .ok relation
    | none => .error (.invalidParams ("Unknown relation: " ++ name))

/-! ## The rows of a tool -/

/-- An array whose first item is a map. -/
def startsWithMap : Value → Bool
  | .arr (.map _ :: _) => true
  | _ => false

/-- The items that are maps. -/
def mapItems : List Value → List (List (Key × Value))
  | [] => []
  | .map entries :: rest => entries :: mapItems rest
  | _ :: rest => mapItems rest

/-- `structured_rows/1`. The rule of the schema is applied to the value: a top-level entry is
taken for an array of objects if it starts with a map. -/
def structuredRows : Option Value → List (List (Key × Value))
  | some (.map entries) =>
    match entries.filter fun entry => startsWithMap entry.2 with
    | [(_, .arr items)] => mapItems items
    | _ => [entries]
  | _ => []

/-- `take_declared/2` as cells: entries with a text of the list for their key. -/
def takeDeclared (declared : List String) (entries : List (Key × Value)) : RowMap :=
  entries.filterMap fun entry =>
    match entry.1 with
    | .text key => if declared.contains key then some (.str key, entry.2.toJson) else none
    | .atom _ => none

/-- The arguments as cells. -/
def argumentCells (arguments : Fields) : RowMap :=
  arguments.map fun argument => (.str argument.1, argument.2)

/-- `tool_rows/3`. Of two cells of one column the first counts. -/
def toolRows (relation : Relation δ) (arguments : Fields) (result : ToolResult) : List RowMap :=
  let base : RowMap :=
    [(.str "content", .arr result.content), (.str "is_error", .bool result.isError)] ++
      argumentCells arguments
  match structuredRows result.structured with
  | [] => [base]
  | rows => rows.map fun row => takeDeclared relation.columns row ++ base

/-- `Map.put/3`. -/
def putField (fields : Fields) (key : String) (value : Json) : Fields :=
  (key, value) :: fields.filter fun entry => decide (entry.1 ≠ key)

/-- Equality quals on declared columns become the arguments of the call. -/
def toolArguments (relation : Relation δ) (quals : List Qual) : Fields :=
  quals.foldl (fun arguments qual =>
    if qual.op = .eq ∧ qual.column ∈ relation.qualColumns
    then putField arguments qual.column qual.value else arguments) []

/-- A callback that ran: a tool with its arguments, or a write of a dataset. -/
inductive Reached where
  | tool (name : String) (arguments : Fields)
  | dataset (relation : String) (op : Op)
  deriving DecidableEq

/-- `invoke_tool/4`, and what it ran. Arguments that the schema refuses are answered without the
handler. -/
def invokeTool (server : Server δ) (tool : String) (arguments : Fields) (ctx : Ctx δ) :
    Except RpcError ToolResult × List Reached :=
  match server.resolve tool ctx with
  | .error error => (.error error, [])
  | .ok callable =>
    if callable.accepts arguments then (callable.run arguments, [.tool tool arguments])
    else (.ok (callable.rejected arguments), [])

/-! ## Reading through -/

/-- The value that an equality qual gives the column. -/
def qualValue (quals : List Qual) (column : String) : Json :=
  ((quals.find? fun qual => qual.column == column && qual.op == .eq).map (·.value)).getD .null

/-- The values that equality and `in` quals give the column. -/
def qualValues (quals : List Qual) (column : String) : List Json :=
  (quals.flatMap fun qual =>
    if qual.column = column then
      match qual.op, qual.value with
      | .eq, value => [value]
      | .isIn, .arr values => values
      | _, _ => []
    else []).eraseDups

def get (value : Json) (key : String) : Json := (value.get key).getD .null

/-- The rows of `prompt_messages` for one prompt. -/
def messageRows (prompt arguments : Json) (rendered : Rendered) : List RowMap :=
  rendered.messages.zipIdx.map fun (message, idx) =>
    let content := Json.orElse (message.get "content") (.obj [])
    [(.str "prompt", prompt), (.str "arguments", arguments), (.str "idx", .int idx),
      (.str "role", get message "role"), (.str "content_type", get content "type"),
      (.str "text", get content "text"), (.str "content", content),
      (.str "description", rendered.description)]

/-- The rows of `resource_contents` for one resource. -/
def contentRows (uri : Json) (contents : List Json) : List RowMap :=
  contents.zipIdx.map fun (content, idx) =>
    [(.str "uri", Json.orElse (content.get "uri") uri), (.str "idx", .int idx),
      (.str "mime_type", get content "mimeType"), (.str "text", get content "text"),
      (.str "blob", get content "blob"), (.str "meta", get content "_meta")]

/-- The rows of `completions` for one argument. -/
def completionRows (ref name value : Json) (completion : Completion) : List RowMap :=
  completion.values.zipIdx.map fun (candidate, idx) =>
    [(.str "ref", ref), (.str "argument_name", name), (.str "argument_value", value),
      (.str "value", candidate), (.str "idx", .int idx), (.str "total", completion.total),
      (.str "has_more", .bool completion.hasMore)]

/-- `Prompts.get/3`. -/
def getPrompt (server : Server δ) (prompt arguments : Json) (ctx : Ctx δ) :
    Except RpcError Rendered :=
  match prompt with
  | .str name => server.getPrompt name (Json.orElse (some arguments) (.obj [])) ctx
  | _ => .error (.invalidParams "prompts/get requires a prompt name")

/-- `Resources.read/3`. -/
def readResource (server : Server δ) (uri : Json) (ctx : Ctx δ) : Except RpcError (List Json) :=
  match uri with
  | .str uri => server.readResource uri ctx
  | _ => .error (.invalidParams "resources/read requires a uri")

/-- The prompt or template that a completion is for. -/
def parseRef (ref : Json) : Option Ref :=
  match ref.get "type", ref.get "name", ref.get "uri" with
  | some (.str "ref/prompt"), some (.str name), _ => some (.prompt name)
  | some (.str "ref/resource"), _, some (.str uri) => some (.resourceTemplate uri)
  | _, _, _ => none

/-- `Completion.complete/3`. -/
def complete (server : Server δ) (ref name value : Json) (ctx : Ctx δ) :
    Except RpcError Completion :=
  match parseRef ref with
  | none => .error (.invalidParams "completion/complete requires a valid ref")
  | some target =>
    match name, value with
    | .str name, .str value => server.complete target name value ctx
    | _, _ => .error (.invalidParams "completion/complete requires argument name and value")

/-- The rows of several resources, up to the first that cannot be read. -/
def readAll (server : Server δ) (ctx : Ctx δ) : List Json → Except RpcError (List RowMap)
  | [] => .ok []
  | uri :: rest =>
    match readResource server uri ctx with
    | .error error => .error error
    | .ok contents =>
      match readAll server ctx rest with
      | .error error => .error error
      | .ok rows => .ok (contentRows uri contents ++ rows)

/-- `dataset_scan/3` and what `read/5` makes of it. -/
def datasetRows (name : String) :
    Outcome (List RowMap × Json) → Except RpcError (List RowMap × Json)
  | .ok answer => .ok answer
  | .error error => .error error
  | .raised text => .error (.internal ("dataset scan failed: " ++ text))
  | .other printed =>
    .error (.internal ("dataset " ++ name ++ " returned " ++ printed ++
      " — expected \x7b:ok, rows, cursor\x7d | \x7b:error, %Noizu.MCP.Error\x7b\x7d\x7d"))

/-- What a handler gave: rows, a cursor, and whether the quals are applied to the rows. -/
structure Batch where
  rows : List RowMap
  cursor : Json := .null
  filtered : Bool := true

/-- `read/5` through a handler, before the quals are applied. -/
def readThrough (server : Server δ) (relation : Relation δ) (quals : List Qual) (opts : Opts)
    (ctx : Ctx δ) : Through δ → Except RpcError Batch
  | .promptMessages =>
    let prompt := qualValue quals "prompt"
    let arguments := Json.orElse (some (qualValue quals "arguments")) (.obj [])
    (getPrompt server prompt arguments ctx).map fun rendered =>
      { rows := messageRows prompt arguments rendered }
  | .resourceContents =>
    (readAll server ctx (qualValues quals "uri")).map fun rows => { rows := rows }
  | .completions =>
    let ref := qualValue quals "ref"
    let name := qualValue quals "argument_name"
    let value := Json.orElse (some (qualValue quals "argument_value")) (.str "")
    (complete server ref name value ctx).map fun completion =>
      { rows := completionRows ref name value completion }
  | .tool tool =>
    let arguments := toolArguments relation quals
    (invokeTool server tool arguments ctx).1.map fun result =>
      { rows := toolRows relation arguments result, filtered := false }
  | .dataset dataset =>
    (datasetRows relation.name (dataset.scan ctx ⟨quals, opts⟩)).map fun answer =>
      { rows := answer.1, cursor := answer.2 }

/-- The rows of a batch that the quals leave. -/
def Batch.kept (host : Host) (quals : List Qual) (batch : Batch) : List RowMap :=
  if batch.filtered then Catalog.Quals.apply host batch.rows quals else batch.rows

/-! ## `sql/scan` -/

/-- The descriptor as far as the catalog goes. -/
def Relation.base (relation : Relation δ) : Catalog.Relation where
  name := relation.name
  columns := relation.columns
  requiredQuals := relation.requiredQuals
  limit := relation.limit
  source :=
    match relation.source with
    | .catalog kind => .catalog kind
    | .promptArguments => .promptArguments
    | .through _ => .other

/-- `authorize/3`: only datasets have a subject of their own. -/
def authorize (server : Server δ) (relation : Relation δ) (ctx : Ctx δ) : Except RpcError Unit :=
  if relation.kind = .dataset ∧ server.allows relation.name ctx = false then
    .error ⟨.int (-32000), .str ("Forbidden: dataset " ++ relation.name), .null, .forbidden⟩
  else .ok ()

/-- Authorisation and `read/5` of a relation that is read through a handler. -/
def scanThrough (host : Host) (server : Server δ) (relation : Relation δ) (quals : List Qual)
    (opts : Opts) (ctx : Ctx δ) (handler : Through δ) : Handled :=
  match authorize server relation ctx with
  | .error error => .error error
  | .ok () =>
    match readThrough server relation quals opts ctx handler with
    | .error error => .error error
    | .ok batch =>
      .rows ((Catalog.outputColumns relation.base opts).map .str) (batch.kept host quals)
        batch.cursor

/-- The server as the model of the catalog has it: the relation that is read through a handler is
found by its name once more. -/
def Server.base (platform : Platform) (server : Server δ) : Catalog.Server δ where
  catalog := server.catalog
  handleListTools := server.handleListTools
  handleListPrompts := server.handleListPrompts
  handleListResources := server.handleListResources
  handleListResourceTemplates := server.handleListResourceTemplates
  toolRelation map := (toolRelation platform map : Option (Relation δ)).map Relation.base
  datasets := some ((datasetRelations server true).map Relation.base)
  readOther relation quals opts ctx :=
    match fetch platform server ctx relation.name with
    | .error error => .error error
    | .ok found =>
      match found.source with
      | .through handler => scanThrough platform.host server found quals opts ctx handler
      | _ => .raised

/-- The reading of one relation. -/
def scanRelation (platform : Platform) (server : Server δ) (ctx : Ctx δ) (relation : Relation δ)
    (opts : Opts) : Handled :=
  match Catalog.Quals.decode platform.host relation.columns opts.quals with
  | .error error => .error error
  | .ok quals =>
    match relation.requiredQuals.filter fun column => !(quals.map (·.column)).contains column with
    | [] =>
      match relation.source with
      | .catalog kind =>
        Catalog.readRows platform.host relation.base quals opts
          (Catalog.catalogRows (server.base platform) ctx kind)
      | .promptArguments =>
        Catalog.readRows platform.host relation.base quals opts
          ((Catalog.drain server.handleListPrompts ctx).map (·.flatMap Catalog.argumentRows))
      | .through handler => scanThrough platform.host server relation quals opts ctx handler
    | missing =>
      .error (.invalidParams ("relation " ++ relation.name ++ " requires quals on " ++
        ", ".intercalate missing))

/-- The scan of a relation by name, hidden datasets included. -/
def defaultScan (platform : Platform) (server : Server δ) (ctx : Ctx δ) (name : String)
    (opts : Opts) : Handled :=
  match relations platform server ctx true with
  | none => .raised
  | some relations =>
    match relations.find? (·.name == name) with
    | none => .error (.invalidParams ("Unknown relation: " ++ name))
    | some relation => scanRelation platform server ctx relation opts

/-! ## `sql/modify` -/

/-- The result of a write: the rows of a tool, the rows of a dataset, or a count. -/
inductive Modified where
  | shaped (rows : List RowMap)
  | rows (rows : List Json)
  | count (n : Nat)

/-- The items of `params["rows"] || []`, if they can be enumerated. -/
def givenRows (params : Fields) : Option (List Json) :=
  match Json.orElse (params.lookup "rows") (.arr []) with
  | .arr rows => some rows
  | .obj [] => some []
  | _ => none

/-- The fields of a row that are columns for quals, if the row is a map. -/
def givenArguments (relation : Relation δ) (row : Json) : Option Fields :=
  match Json.orElse (some row) (.obj []) with
  | .obj fields => some (fields.filter fun entry => relation.qualColumns.contains entry.1)
  | _ => none

/-- `write/5`: an insert into a tool relation calls the tool once per row, up to the first call
that fails. -/
def insertRows (server : Server δ) (relation : Relation δ) (tool : String) (ctx : Ctx δ) :
    List Json → Except RpcError (List RowMap) × List Reached
  | [] => (.ok [], [])
  | row :: rest =>
    match givenArguments relation row with
    | none => (.error crashed, [])
    | some arguments =>
      match invokeTool server tool arguments ctx with
      | (.error error, reached) => (.error error, reached)
      | (.ok result, reached) =>
        match insertRows server relation tool ctx rest with
        | (.error error, later) => (.error error, reached ++ later)
        | (.ok rows, later) => (.ok (toolRows relation arguments result ++ rows), reached ++ later)

/-- `guarded/2` and the shape check after it. -/
def writeResult {α : Type} (wrong : String → RpcError) :
    Outcome α → Except RpcError α
  | .ok value => .ok value
  | .error error => .error error
  | .raised text => .error (.internal ("dataset write failed: " ++ text))
  | .other printed => .error (wrong printed)

/-- `rows_result/2`. -/
def wrongRows (name printed : String) : RpcError :=
  .internal ("dataset " ++ name ++ " write returned " ++ printed ++
    " — expected \x7b:ok, rows\x7d | \x7b:error, %Noizu.MCP.Error\x7b\x7d\x7d")

def wrongCount (name printed : String) : RpcError :=
  .internal ("dataset " ++ name ++ " delete/2 returned " ++ printed ++
    " — expected \x7b:ok, non_neg_integer\x7d | \x7b:error, %Noizu.MCP.Error\x7b\x7d\x7d")

/-- `dataset_write/5`; `none` when the callback is not defined. -/
def datasetWrite (platform : Platform) (relation : Relation δ) (dataset : Dataset δ)
    (params : Fields)
    (ctx : Ctx δ) : Op → Option (Except RpcError Modified × List Reached)
  | .insert =>
    dataset.insert.map fun callback =>
      match Json.orElse (params.lookup "rows") (.arr []) with
      | .arr rows =>
        ((writeResult (wrongRows relation.name) (callback rows ctx)).map .rows,
          [.dataset relation.name .insert])
      | _ => (.error (.invalidParams "sql/modify insert requires a rows array"), [])
  | .update =>
    dataset.update.map fun callback =>
      match Catalog.Quals.decode platform.host relation.columns (field params "quals") with
      | .error error => (.error error, [])
      | .ok quals =>
        match Json.orElse (params.lookup "changes") (.obj []) with
        | .obj changes =>
          ((writeResult (wrongRows relation.name) (callback quals changes ctx)).map .rows,
            [.dataset relation.name .update])
        | _ => (.error (.invalidParams "sql/modify update requires a changes object"), [])
  | .delete =>
    dataset.delete.map fun callback =>
      match Catalog.Quals.decode platform.host relation.columns (field params "quals") with
      | .error error => (.error error, [])
      | .ok quals =>
        ((writeResult (wrongCount relation.name) (callback quals ctx)).map .count,
          [.dataset relation.name .delete])

/-- A write by kind of relation and operation; everything else is refused. -/
def write (platform : Platform) (server : Server δ) (relation : Relation δ) (op : Op)
    (params : Fields) (ctx : Ctx δ) : Except RpcError Modified × List Reached :=
  match relation.source, op with
  | .through (.tool tool), .insert =>
    match givenRows params with
    | none => (.error crashed, [])
    | some rows =>
      let inserted := insertRows server relation tool ctx rows
      (inserted.1.map .shaped, inserted.2)
  | .through (.tool _), op =>
    (.error (.invalidRequest ("relation " ++ relation.name ++ " does not support " ++ op.name)), [])
  | .through (.dataset dataset), op =>
    (datasetWrite platform relation dataset params ctx op).getD
      (.error (.methodNotFound ("sql/modify " ++ op.name ++ " on relation " ++ relation.name)), [])
  | _, op =>
    (.error (.invalidRequest ("relation " ++ relation.name ++ " is read-only (" ++ op.name ++ ")")),
      [])

/-- The operation that the request names. -/
def fetchOp (platform : Platform) (params : Fields) : Except RpcError Op :=
  match field params "op" with
  | .str "insert" => .ok .insert
  | .str "update" => .ok .update
  | .str "delete" => .ok .delete
  | other =>
    .error (.invalidParams ("sql/modify op must be insert|update|delete, got: " ++
      platform.host.printer.json other))

/-- The writing of one relation. -/
def modifyRelation (platform : Platform) (server : Server δ) (ctx : Ctx δ) (relation : Relation δ)
    (op : Op) (params : Fields) : Except RpcError Modified × List Reached :=
  match authorize server relation ctx with
  | .error error => (.error error, [])
  | .ok () => write platform server relation op params ctx

/-- `default_modify/4`: the relation is looked up, checked and written. -/
def defaultModify (platform : Platform) (server : Server δ) (ctx : Ctx δ) (name : String) (op : Op)
    (params : Fields) : Except RpcError Modified × List Reached :=
  match fetch platform server ctx name with
  | .error error => (.error error, [])
  | .ok relation => modifyRelation platform server ctx relation op params

/-- `modify/3` with the generated `handle_sql_modify/3`. -/
def modify (platform : Platform) (server : Server δ) (ctx : Ctx δ) (params : Fields) :
    Except RpcError Modified × List Reached :=
  match Sql.fetchRelation "sql/modify" params with
  | .error error => (.error error, [])
  | .ok name =>
    match fetchOp platform params with
    | .error error => (.error error, [])
    | .ok op => defaultModify platform server ctx name op params

end NoizuMcp.Relations
