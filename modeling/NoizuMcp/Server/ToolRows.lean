import Mathlib.Data.List.Forall2
import NoizuMcp.Server.RelationWrites

/-!
# The rows of a tool and the schema of its result

The columns of a tool relation come from the schemas of the tool, its rows from the value that
the handler returned: `tool_rows/3` never looks at the schema, it takes for the array of objects
whatever entry of the value starts with a map. The schema prescribes one row per element of its
one array of objects, and one row if it has none or several (`elements`). The two agree, whatever
arguments are sent, just if the maps that the rows are made of show the elements and no column has
two sources (`rows_as_declared`). An empty array, a second array, a declared key that is an atom or
an output named like an input gives other rows than the schema prescribes.
-/

set_option autoImplicit false

namespace NoizuMcp.Relations

open NoizuMcp.Server Server.Wire

open Protocol (Json Fields RpcError)

open Server.Sql (Opts RowMap Handled Column propertiesOf arrayOfObjects fanOut
  rowProperties objectItems)

open Catalog (Ctx Qual Kind)

variable {δ : Type}

/-! ## What the schema prescribes -/

/-- Whether a value has a type of JSON Schema. -/
def hasType : String → Json → Bool
  | "object", .obj _ => true
  | "array", .arr _ => true
  | "string", .str _ => true
  | "boolean", .bool _ => true
  | "null", .null => true
  | "integer", .int _ => true
  | "integer", .float q => q.den == 1
  | "number", .int _ => true
  | "number", .float _ => true
  | _, _ => false

/-- What validity says by the keywords `type`, `properties`, `items` and `required`. Every other
keyword only makes fewer values valid. -/
inductive Conforms : Json → Json → Prop
  | intro {schema value : Json}
      (type : ∀ name, schema.get "type" = some (.str name) → hasType name value = true)
      (properties : ∀ properties, propertiesOf schema = some properties →
        ∀ name property, (name, property) ∈ properties →
          ∀ entry, value.get name = some entry → Conforms property entry)
      (items : ∀ inner, schema.get "items" = some inner →
        ∀ elements, value = .arr elements → ∀ element ∈ elements, Conforms inner element)
      (required : ∀ names, schema.get "required" = some (.arr names) →
        ∀ fields, value = .obj fields → ∀ name, .str name ∈ names → (value.get name).isSome) :
      Conforms schema value

/-- What the rows are made of: the elements of the array that the schema fans out over, or the
whole value. -/
def elements (schema value : Json) : List Json :=
  match fanOut schema with
  | some name =>
    match value.get name with
    | some (.arr items) => items
    | _ => []
  | none => [value]

/-- The names of the declared columns. -/
def outputNames (schema : Json) : List String := (rowProperties schema).map Prod.fst

/-- The properties that the schema declares. -/
def inputNames (schema : Json) : List String := ((propertiesOf schema).getD []).map Prod.fst

/-- The cell of a row. -/
def cell (row : RowMap) (column : String) : Json := (row.lookup (.str column)).getD .null

section Columns

variable {float : Rat → String} {schema : Json} {columns : List Column}

end Columns

variable {declared : List String} {name : String}

/-- The entry under a text; an atom of the same name is another key. -/
def textEntry (entries : List (Key × Value)) (name : String) : Option Json :=
  (entries.lookup (.text name)).map Value.toJson

/-- The map shows the element: it has the declared properties of the element under texts, and none
that is named like an input. One that is named like a column of the call itself is there. -/
structure Shows (map : ToolMap) (element : Json) (entries : List (Key × Value)) : Prop where
  outputs : ∀ name ∈ outputNames map.outputSchema,
    (textEntry entries name).getD .null = get element name
  own : ∀ name ∈ outputNames map.outputSchema, name = "content" ∨ name = "is_error" →
    textEntry entries name ≠ none
  inputs : ∀ name ∈ inputNames map.inputSchema, textEntry entries name = none

section Rows

variable {map : ToolMap} {relation : Relation δ} {arguments : Fields} {result : ToolResult}
  {value : Value} {element : Json} {entries : List (Key × Value)}

/-- What is asked of the columns and the arguments of a call. -/
structure Sent (map : ToolMap) (relation : Relation δ) (arguments : Fields) : Prop where
  outputs : ∀ name ∈ outputNames map.outputSchema, name ∈ relation.columns
  inputs : ∀ name ∈ inputNames map.inputSchema, name ∈ relation.columns
  arguments : ∀ entry ∈ arguments, entry.1 ∈ inputNames map.inputSchema

end Rows

/-! ## Scans and inserts -/

/-- A call of a tool: what was sent and what came back. -/
structure Call where
  arguments : Fields
  result : ToolResult
  value : Value

/-- The handler was called and returned structured content that is valid. -/
structure Answered (server : Server δ) (ctx : Ctx δ) (map : ToolMap) (call : Call) : Prop where
  invoked : invokeTool server map.name call.arguments ctx =
    (.ok call.result, [.tool map.name call.arguments])
  structured : call.result.structured = some call.value
  valid : Conforms map.outputSchema call.value.toJson

section Requests

variable {platform : Platform} {server : Server δ} {ctx : Ctx δ} {map : ToolMap}
  {relation : Relation δ}

variable {arguments : Fields}

end Requests

section Requests

variable {platform : Platform} {server : Server δ} {ctx : Ctx δ} {map : ToolMap}
  {relation : Relation δ} {returns : Value → Prop}

end Requests

/-- A server whose tools return one result. -/
def returning (result : ToolResult) : Server δ :=
  { offering ["search"] [] with
    resolve := fun _ _ => .ok
      { accepts := fun _ => true
        rejected := fun _ => { content := [] }
        run := fun _ => .ok result } }

def hit (id : Int) : Value := .map [(.text "id", .int id)]

end NoizuMcp.Relations
