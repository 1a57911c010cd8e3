import NoizuMcp.Server.Descriptions
import NoizuMcp.Server.Pagination
import NoizuMcp.Server.SqlScan

/-!
# The catalog relations

`sql/scan` of the relations `tools`, `prompts`, `resources` and `resource_templates` collects all
rows first (`Schema.catalog_rows/3`) and pages through them with its own cursors. The list
callbacks, generated or written by hand, and the toolset that a request gets are parameters.
-/

set_option autoImplicit false

namespace NoizuMcp.Catalog

open NoizuMcp.Server

open Protocol (Json Fields RpcError)

open Server.Wire

open Server.Sql (Opts Direction Printer RowMap Handled field)

open Server.Pagination (Texts Text)

/-! ## Servers and requests -/

/-- What the assigns of a request say about rendering. -/
structure Assigns where
  renderCtx : Option RenderCtx := none
  verbosity : Option Int := none
  runner : Option String := none
  model : Option String := none

/-- The context of a request: its assigns if they are a map, the `default_verbosity` option of
the server it names, that of the application, and what else a callback reads. -/
structure Ctx (δ : Type) where
  assigns : Option Assigns := none
  server : Option (Option Int) := none
  application : Option Int := none
  data : δ

/-- What a list callback comes to: a page, an error, another value, an
`UndefinedFunctionError` about the callback itself, or another exception. -/
inductive Listing (α : Type) where
  | page (items : List α) (next : Option String)
  | error (error : RpcError)
  | other
  | undefined
  | raised

/-- A list callback, if the server exports it. -/
abbrev Callback (δ α : Type) := Option (Option String → Ctx δ → Listing α)

/-- A composed tool, with what the principal may see of it. -/
structure Entry where
  definition : Tool
  visible : Bool

/-- What `Toolset.catalog/3` comes to. -/
inductive Materialized where
  | entries (entries : List Entry)
  | error (error : RpcError)
  | raised (message : String)

/-- The relations that mirror a list method. -/
inductive Kind where
  | tools
  | prompts
  | resources
  | resourceTemplates
  deriving DecidableEq

/-- Where the rows of a relation come from. -/
inductive Source where
  | catalog (kind : Kind)
  | promptArguments
  | other
  deriving DecidableEq

/-- The descriptor of a relation. -/
structure Relation where
  name : String
  columns : List String
  requiredQuals : List String := []
  limit : Bool := true
  source : Source

/-- The operators of a qual. -/
inductive QualOp where
  | eq | ne | lt | lte | gt | gte | isIn | notIn | like | isNull | isNotNull
  deriving DecidableEq

/-- A condition of a scan on one column. -/
structure Qual where
  column : String
  op : QualOp
  value : Json

/-- A server as far as listing goes: `catalog` is `Toolset.catalog/3` of the toolset that
`select_toolset/2` gives the request; `toolRelation` and `datasets` are the relations of its
tools and its datasets, whose construction may raise; `readOther` is the authorisation and the
reading of a relation that is not in the catalog. -/
structure Server (δ : Type) where
  catalog : Ctx δ → Materialized
  handleListTools : Callback δ Tool := none
  handleListPrompts : Callback δ Prompt := none
  handleListResources : Callback δ Resource := none
  handleListResourceTemplates : Callback δ ResourceTemplate := none
  toolRelation : ToolMap → Option Relation
  datasets : Option (List Relation) := some []
  readOther : Relation → List Qual → Opts → Ctx δ → Handled

/-- What comes from outside the library: `inspect/1`, base 64 and numbers as texts, the order
and the equality of Erlang terms, and the regular expressions behind `like`. -/
structure Host where
  printer : Printer
  texts : Texts
  decode_offset : ∀ n, texts.decode64 (texts.encode64 ("sql:".toList ++ texts.print n)) =
    some ("sql:".toList ++ texts.print n)
  termLt : Json → Json → Bool
  termEq : Json → Json → Bool
  like : String → String → Bool

variable {δ : Type}

/-- The answer to a request whose handler raised. -/
def crashed : RpcError := .internal "Request handler failed"

/-! ## The rows of the catalog -/

/-- `effective_tools/2`: a toolset that fails has no tools. -/
def effectiveTools (server : Server δ) (ctx : Ctx δ) : List Tool :=
  match server.catalog ctx with
  | .entries entries => (entries.filter (·.visible)).map (·.definition)
  | .error _ | .raised _ => []

/-- `drain/6` with so many calls left; `none` when an exception passes through it. -/
def drainFrom {α : Type} (callback : Option String → Listing α) :
    Nat → Option String → List α → Option (List α)
  | 0, _, acc => some acc
  | left + 1, cursor, acc =>
    match callback cursor with
    | .page items none => some (acc ++ items)
    | .page items (some next) => drainFrom callback left (some next) (acc ++ items)
    | .error _ | .other | .undefined => some acc
    | .raised => none

/-- The calls of `drain/6`: it stops at a depth over 1000. -/
def drainCalls : Nat := 1001

/-- `drain/3`. A callback that is not there is an `UndefinedFunctionError`. -/
def drain {α : Type} (callback : Callback δ α) (ctx : Ctx δ) : Option (List α) :=
  match callback with
  | none => some []
  | some callback => drainFrom (callback · ctx) drainCalls none []

/-- `annotations && annotations[key]`. -/
def hint (annotations : Option (List (Key × Json))) (key : String) : Json :=
  match annotations with
  | some entries => (entries.lookup (.text key)).getD .null
  | none => .null

/-- The row of a tool; the four hints come out of its annotations. -/
def toolRow (map : ToolMap) : RowMap :=
  [(.str "name", .str map.name), (.str "title", map.title),
    (.str "description", map.description), (.str "input_schema", map.inputSchema),
    (.str "output_schema", map.outputSchema),
    (.str "annotations", annotationsJson map.annotations),
    (.str "read_only", hint map.annotations "readOnlyHint"),
    (.str "destructive", hint map.annotations "destructiveHint"),
    (.str "idempotent", hint map.annotations "idempotentHint"),
    (.str "open_world", hint map.annotations "openWorldHint"), (.str "meta", map.metaMap)]

/-- The row of a prompt, from its wire map. -/
def promptRow (wire : Fields) : RowMap :=
  [(.str "name", field wire "name"), (.str "title", field wire "title"),
    (.str "description", field wire "description"), (.str "meta", field wire "_meta")]

/-- The row of a resource. -/
def resourceRow (wire : Fields) : RowMap :=
  [(.str "uri", field wire "uri"), (.str "name", field wire "name"),
    (.str "title", field wire "title"), (.str "description", field wire "description"),
    (.str "mime_type", field wire "mimeType"), (.str "size", field wire "size"),
    (.str "annotations", field wire "annotations"), (.str "meta", field wire "_meta")]

/-- The row of a resource template. -/
def templateRow (wire : Fields) : RowMap :=
  [(.str "uri_template", field wire "uriTemplate"), (.str "name", field wire "name"),
    (.str "title", field wire "title"), (.str "description", field wire "description"),
    (.str "mime_type", field wire "mimeType"), (.str "annotations", field wire "annotations"),
    (.str "meta", field wire "_meta")]

/-- The rows of one prompt in `prompt_arguments`. -/
def argumentRows (prompt : Prompt) : List RowMap :=
  prompt.arguments.zipIdx.map fun (argument, idx) =>
    [(.str "prompt", prompt.name), (.str "name", argument.name),
      (.str "description", argument.description), (.str "required", .bool argument.required),
      (.str "idx", .int idx)]

/-- `catalog_rows/3`; `none` when it raises. -/
def catalogRows (server : Server δ) (ctx : Ctx δ) : Kind → Option (List RowMap)
  | .tools => ((effectiveTools server ctx).mapM (Tool.toMap {})).map (·.map toolRow)
  | .prompts => (drain server.handleListPrompts ctx).map (·.map fun prompt => promptRow
    prompt.toMap)
  | .resources =>
    (drain server.handleListResources ctx).map (·.map fun resource => resourceRow resource.toMap)
  | .resourceTemplates =>
    (drain server.handleListResourceTemplates ctx).map (·.map
      fun template => templateRow template.toMap)

/-! ## Relations -/

/-- The columns that a catalog relation declares. -/
def Kind.columns : Kind → List String
  | .tools =>
    ["name", "title", "description", "input_schema", "output_schema", "annotations", "read_only",
      "destructive", "idempotent", "open_world", "meta"]
  | .prompts => ["name", "title", "description", "meta"]
  | .resources =>
    ["uri", "name", "title", "description", "mime_type", "size", "annotations", "meta"]
  | .resourceTemplates =>
    ["uri_template", "name", "title", "description", "mime_type", "annotations", "meta"]

/-! ## Quals and order -/

namespace Quals

/-- The names of the operators on the wire. -/
def operators : List (String × QualOp) :=
  [("eq", .eq), ("ne", .ne), ("lt", .lt), ("lte", .lte), ("gt", .gt), ("gte", .gte), ("in", .isIn),
    ("not_in", .notIn), ("like", .like), ("is_null", .isNull), ("is_not_null", .isNotNull)]

/-- `unknown_operator/1` of a printed operator. -/
def unknownOperator (printed : String) : RpcError :=
  .invalidParams ("unknown qual operator " ++ printed ++ " — expected one of " ++
    ", ".intercalate (operators.map Prod.fst))

/-- `decode_op/1`; the text of another value is printed twice. -/
def decodeOp (host : Host) : Json → Except RpcError QualOp
  | .str op =>
    match operators.lookup op with
    | some known => .ok known
    | none => .error (unknownOperator (host.printer.json (.str op)))
  | op => .error (unknownOperator (host.printer.json (.str (host.printer.json op))))

/-- The null tests take no value; `in` and `not_in` take a list. -/
def decodeValue (host : Host) (name : String) (op : QualOp) (value : Json) :
    Except RpcError Json :=
  match op, value with
  | .isNull, _ | .isNotNull, _ => .ok .null
  | .isIn, .arr values | .notIn, .arr values => .ok (.arr values)
  | .isIn, other | .notIn, other =>
    .error (.invalidParams ("qual operator " ++ name ++ " requires a list value, got: " ++
      host.printer.json other))
  | _, value => .ok value

/-- A qual names a declared column and a known operator. -/
def decodeOne (host : Host) (columns : List String) (qual : Json) : Except RpcError Qual :=
  match qual.get "column", qual.get "op" with
  | some (.str column), some op =>
    match decodeOp host op with
    | .error error => .error error
    | .ok known =>
      if columns.contains column then
        match decodeValue host (op.asStr.getD "") known ((qual.get "value").getD .null) with
        | .ok value => .ok ⟨column, known, value⟩
        | .error error => .error error
      else
        .error (.invalidParams ("unknown qual column " ++ host.printer.json (.str column) ++
          " — expected one of " ++ host.printer.json (.arr (columns.map .str))))
  | _, _ =>
    .error (.invalidParams ("each qual requires a string \"column\" and an \"op\", got: " ++
      host.printer.json qual))

/-- `decode/2` on a list. -/
def decodeAll (host : Host) (columns : List String) : List Json → Except RpcError (List Qual)
  | [] => .ok []
  | qual :: rest =>
    match decodeOne host columns qual with
    | .error error => .error error
    | .ok decoded =>
      match decodeAll host columns rest with
      | .ok quals => .ok (decoded :: quals)
      | .error error => .error error

/-- `quals` of a request: absent, or a list. -/
def decode (host : Host) (columns : List String) : Json → Except RpcError (List Qual)
  | .null => .ok []
  | .arr quals => decodeAll host columns quals
  | other => .error (.invalidParams ("quals must be a list, got: " ++ host.printer.json other))

/-- The number that a value is. -/
def number : Json → Option Rat
  | .int n => some n
  | .float q => some q
  | _ => none

/-- `equal?/2`: numbers by value, everything else strictly. -/
def equal (a b : Json) : Bool :=
  match number a, number b with
  | some x, some y => x == y
  | _, _ => decide (a = b)

/-- Whether the value of a row meets a qual; null on either side meets only the null tests. -/
def evaluate (host : Host) (op : QualOp) (actual value : Json) : Bool :=
  match op with
  | .isNull => decide (actual = .null)
  | .isNotNull => decide (actual ≠ .null)
  | op =>
    if actual = .null ∨ value = .null then false
    else
      match op, value with
      | .eq, value => equal actual value
      | .ne, value => !equal actual value
      | .isIn, .arr values => values.any (equal actual)
      | .isIn, _ => false
      | .notIn, .arr values => !values.any (equal actual)
      | .notIn, _ => true
      | .like, .str pattern =>
        match actual with
        | .str text => host.like pattern text
        | _ => false
      | .like, _ => false
      | .lt, value => host.termLt actual value
      | .lte, value => !host.termLt value actual
      | .gt, value => host.termLt value actual
      | .gte, value => !host.termLt actual value
      | .isNull, _ | .isNotNull, _ => false

/-- The rows that meet every qual; an absent column counts as null. -/
def apply (host : Host) (rows : List RowMap) (quals : List Qual) : List RowMap :=
  rows.filter fun row => quals.all fun qual =>
    evaluate host qual.op ((row.lookup (.str qual.column)).getD .null) qual.value

end Quals

/-- `compare_rows/3`, whether the left row may stand first. -/
def ordered (host : Host) (left right : RowMap) : List (String × Direction) → Bool
  | [] => true
  | (column, direction) :: rest =>
    let a := (left.lookup (.str column)).getD .null
    let b := (right.lookup (.str column)).getD .null
    if host.termEq a b then ordered host left right rest
    else
      match direction with
      | .desc => host.termLt b a
      | .asc => host.termLt a b

/-- Stable, so rows that the sort does not tell apart keep their order. -/
def sortRows (host : Host) (rows : List RowMap) (sort : List (String × Direction)) :
    List RowMap :=
  if sort.isEmpty then rows else rows.mergeSort fun left right => ordered host left right sort

/-! ## `sql/scan` -/

/-- The rows of a page when the request has no limit. -/
def defaultLimit : Int := 500

/-- The opaque cursor of an offset. -/
def encodeOffset (host : Host) (offset : Int) : String :=
  String.ofList (host.texts.encode64 ("sql:".toList ++ host.texts.print offset))

/-- The offset of a cursor; none for a text that no cursor has. -/
def offset (host : Host) : Option String → Option Int
  | none => some 0
  | some cursor =>
    match host.texts.decode64 cursor.toList with
    | some ('s' :: 'q' :: 'l' :: ':' :: rest) =>
      match host.texts.parse rest with
      | some (n, []) => some n
      | _ => none
    | _ => none

/-- `page/3`; `none` is the error "Invalid cursor". -/
def page (host : Host) (rows : List RowMap) (relation : Relation) (opts : Opts) :
    Option (List RowMap × Option String) :=
  if relation.limit then
    let limit := opts.limit.getD defaultLimit
    (offset host opts.cursor).map fun offset =>
      (Pagination.slice rows offset limit.toNat,
        if offset + limit < rows.length then some (encodeOffset host (offset + limit)) else none)
  else some (rows, none)

/-- The declared columns that are asked for, or all if there are none. -/
def outputColumns (relation : Relation) (opts : Opts) : List String :=
  match opts.columns with
  | none => relation.columns
  | some requested =>
    match requested.filter relation.columns.contains with
    | [] => relation.columns
    | columns => columns

/-- `read/5`, on rows that are there once and for all; `none` when collecting them raised. -/
def readRows (host : Host) (relation : Relation) (quals : List Qual) (opts : Opts) :
    Option (List RowMap) → Handled
  | none => .raised
  | some rows =>
    match page host (sortRows host (Quals.apply host rows quals) opts.sort) relation opts with
    | none => .error (.invalidParams "Invalid cursor")
    | some (rows, next) => .rows ((outputColumns relation opts).map .str) rows (optStr next)

/-- A host whose cursors hold numbers as a sign and as many ones. -/
def unaryHost : Host where
  printer := ⟨fun _ => "", fun _ => ""⟩
  texts := Pagination.unaryTexts
  decode_offset n := by
    have hzero : ∀ n, '\x00' ∉ List.replicate n '1' := fun n hmem =>
      absurd (List.eq_of_mem_replicate hmem) (by decide)
    cases n with
    | ofNat n => simp [Pagination.unaryTexts, hzero]
    | negSucc n =>
      simp only [Pagination.unaryTexts, List.mem_append, List.mem_cons, hzero, or_false]
      simp
  termLt _ _ := false
  termEq a b := decide (a = b)
  like _ _ := false

end NoizuMcp.Catalog
