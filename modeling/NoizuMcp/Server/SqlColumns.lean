import Mathlib.Data.List.Sort
import NoizuMcp.Protocol.JsonRpc

/-!
# The columns of a tool, twice

The schema builder of the server (`SQL.Types`, `SQL.Schema`) and the planner of the foreign
data wrapper (`codegen`) both read the JSON Schemas of a tool: whether its result is one row
per element of an array, and which PostgreSQL type every property gets. Both are modelled as
they are written, `NoizuMcp.Server.Sql` after the first and `NoizuMcp.Codegen` after the
second.

They decide on the fan-out alike just if no array of objects stands beside other properties
and none has items without properties (`fanOut_eq_iff`). They give a property one type just if
they read the same name off its `type`, or names that are both `jsonb`, and no `enum` of a string
stands beside a format or holds what is no text (`types_agree_iff`).
-/

set_option autoImplicit false

namespace NoizuMcp.Server.Sql

open Protocol (Json Fields)

/-! ## The schema builder -/

/-- The vocabulary of `SQL.Types`. -/
inductive SqlType where
  | text
  | bigint
  | double
  | boolean
  | timestamptz
  | date
  | uuid
  | jsonb
  | enum (values : List String)
  deriving DecidableEq

/-- The name of the type in Postgres. -/
def SqlType.toSql : SqlType → String
  | .text => "text"
  | .bigint => "bigint"
  | .double => "double precision"
  | .boolean => "boolean"
  | .timestamptz => "timestamptz"
  | .date => "date"
  | .uuid => "uuid"
  | .jsonb => "jsonb"
  | .enum _ => "text"

mutual

/-- `List.to_string/1`: code points, strings and lists of them; anything else raises. -/
def charData : List Json → Option String
  | [] => some ""
  | item :: rest => do
    let text ← charItem item
    let later ← charData rest
    return text ++ later

/-- A code point or a text of an Elixir charlist. -/
def charItem : Json → Option String
  | .int n =>
    if 0 ≤ n ∧ n.toNat.isValidChar then some (String.singleton (Char.ofNat n.toNat)) else none
  | .str s => some s
  | .arr items => charData items
  | _ => none

end

/-- `to_string/1`, where `float` writes a float. -/
def toText (float : Rat → String) : Json → Option String
  | .null => some ""
  | .bool b => some (if b then "true" else "false")
  | .int n => some (toString n)
  | .float q => some (float q)
  | .str s => some s
  | .arr items => charData items
  | .obj _ => none

/-- `from_field_type(:string, format: format)`. -/
def stringType : Option Json → SqlType
  | some (.str "date-time") => .timestamptz
  | some (.str "date") => .date
  | some (.str "uuid") => .uuid
  | _ => .text

section Builder

variable (float : Rat → String)

/-- `from_json_schema/1` of a named type; `none` is a raise. -/
def fromNamedType (fields : Fields) (name : String) : Option SqlType :=
  if name = "string" then
    match fields.lookup "enum" with
    | some (.arr (first :: rest)) => ((first :: rest).mapM (toText float)).map .enum
    | _ => some (stringType (fields.lookup "format"))
  else if name = "integer" then some .bigint
  else if name = "number" then some .double
  else if name = "boolean" then some .boolean
  else some .jsonb

/-- The members of a union that are not `"null"`. -/
def branches (types : List Json) : List Json := types.filter fun t => decide (t ≠ .str "null")

/-- `from_json_schema/1` with `type` in the place of the schema's own. A union of one branch
is read again with that branch, which may be a union itself. -/
def fromType (fields : Fields) (type : Json) : Option SqlType :=
  match type with
  | .str name => fromNamedType float fields name
  | .arr types =>
    match _h : branches types with
    | [single] => fromType fields single
    | _ => some .jsonb
  | _ => some .jsonb
termination_by sizeOf type
decreasing_by
  have hmem : single ∈ types := List.mem_of_mem_filter (_h ▸ List.mem_singleton_self single)
  have hlt := List.sizeOf_lt_of_mem hmem
  simp only [Json.arr.sizeOf_spec]
  omega

theorem fromType_str (fields : Fields) (name : String) :
    fromType float fields (.str name) = fromNamedType float fields name := by
  rw [fromType.eq_def]

theorem fromType_arr (fields : Fields) (types : List Json) :
    fromType float fields (.arr types) =
      match branches types with
      | [single] => fromType float fields single
      | _ => some .jsonb := by
  rw [fromType.eq_def]
  change (match _h : branches types with
    | [single] => fromType float fields single
    | _ => some .jsonb) = _
  split <;> simp_all

/-- The type of a property, from its schema. -/
def fromJsonSchema : Json → Option SqlType
  | .obj fields =>
    match fields.lookup "type" with
    | some type => fromType float fields type
    | none => some .jsonb
  | _ => some .jsonb

/-- A column. -/
structure Column where
  name : String
  type : SqlType
  description : Option String
  deriving DecidableEq

/-- The properties of a schema, if they are a map. -/
def propertiesOf (schema : Json) : Option Fields :=
  match schema.get "properties" with
  | some (.obj properties) => some properties
  | _ => none

/-- The column of a property, with its description. -/
def column (property : String × Json) : Option Column := do
  let type ← fromJsonSchema float property.2
  return ⟨property.1, type, (property.2.get "description").bind Json.asStr⟩

/-- The columns of a schema, by name. -/
def schemaColumns (schema : Json) : Option (List Column) :=
  match propertiesOf schema with
  | some properties => (properties.insertionSort fun p p' => p.1 ≤ p'.1).mapM (column float)
  | none => some []

/-- The items of a property that is an array of objects with properties. -/
def objectItems (property : Json) : Option Json :=
  if property.get "type" = some (.str "array") then
    (property.get "items").filter fun items =>
      decide (items.get "type" = some (.str "object")) && (propertiesOf items).isSome
  else none

/-- The only property that is a list of objects; none if there are several. -/
def arrayOfObjects (properties : Fields) : Option (String × Json) :=
  match properties.filterMap fun p => (objectItems p.2).map fun items => (p.1, items) with
  | [single] => some single
  | _ => none

/-- The columns of a tool's rows: of the list that fans out, or of the result itself. -/
def outputColumns (schema : Json) : Option (List Column) :=
  match propertiesOf schema with
  | some properties =>
    match arrayOfObjects properties with
    | some (_, items) => schemaColumns float items
    | none => schemaColumns float schema
  | none => some []

end Builder

/-- The property over whose elements the result fans out. -/
def fanOut (schema : Json) : Option String :=
  ((propertiesOf schema).bind arrayOfObjects).map Prod.fst

end NoizuMcp.Server.Sql

namespace NoizuMcp.Codegen

open Protocol (Json Fields)

/-! ## The planner -/

/-- `ColumnType`. -/
inductive ColumnType where
  | text
  | jsonb
  | boolean
  | int4
  | int8
  | bytea
  | uuid
  | timestampTz
  | float8
  | date
  deriving DecidableEq

/-- `sql_name`. -/
def ColumnType.sqlName : ColumnType → String
  | .text => "text"
  | .jsonb => "jsonb"
  | .boolean => "boolean"
  | .int4 => "integer"
  | .int8 => "bigint"
  | .bytea => "bytea"
  | .uuid => "uuid"
  | .timestampTz => "timestamptz"
  | .float8 => "double precision"
  | .date => "date"

/-- `map_named_type`. -/
def mapNamedType (name : String) (schema : Json) : ColumnType :=
  if name = "string" then
    match (schema.get "format").bind Json.asStr with
    | some "date-time" => .timestampTz
    | some "date" => .date
    | some "uuid" => .uuid
    | _ => .text
  else if name = "integer" then .int8
  else if name = "number" then .float8
  else if name = "boolean" then .boolean
  else .jsonb

/-- The keywords that make a schema more than one shape. -/
def compositionKeywords : List String := ["$ref", "oneOf", "anyOf", "allOf"]

/-- `map_type`. -/
def mapType (schema : Json) : ColumnType :=
  if compositionKeywords.any fun keyword => (schema.get keyword).isSome then .jsonb
  else
    match schema.get "type" with
    | some (.str name) => mapNamedType name schema
    | some (.arr types) =>
      match (types.filterMap Json.asStr).filter fun name => decide (name ≠ "null") with
      | [only] => mapNamedType only schema
      | _ => .jsonb
    | _ => .jsonb

/-- `properties`. -/
def properties (schema : Json) : Option Fields :=
  match schema.get "properties" with
  | some (.obj properties) => some properties
  | _ => none

/-- How the planner makes names of columns and writes JSON. -/
structure Names where
  derive : String → String
  print : Json → String

/-- A column of the planned tool. -/
structure Column where
  property : String
  sqlName : String
  pgType : ColumnType
  required : Bool
  enumHint : Option String
  deriving DecidableEq

section Planner

variable (names : Names)

/-- `enum_hint`. -/
def enumHint (schema : Json) : Option String :=
  match schema.get "enum" with
  | some (.arr (first :: rest)) =>
    let rendered := (first :: rest).map fun value =>
      match value with
      | .str text => text
      | other => names.print other
    some ("Permitted values: " ++ String.intercalate ", " rendered)
  | _ => none

/-- The column that the extension makes of a property. -/
def outputColumn (property : String × Json) : Column where
  property := property.1
  sqlName := if names.derive property.1 = "" then "_" else names.derive property.1
  pgType := mapType property.2
  required := false
  enumHint := enumHint names property.2

/-- `element_columns`. -/
def elementColumns (items : Json) : List Column :=
  ((properties items).getD []).map (outputColumn names)

/-- `array_items_of_objects`. -/
def arrayItemsOfObjects (schema : Json) : Option Json :=
  if (schema.get "type").bind Json.asStr = some "array" then
    (schema.get "items").filter fun items =>
      decide ((items.get "type").bind Json.asStr = some "object")
  else none

/-- `OutputShape`. -/
inductive OutputShape where
  | none
  | elementOf (property : String) (columns : List Column)
  | single (columns : List Column)

/-- `analyze_output`. -/
def analyzeOutput : Option Json → OutputShape
  | .none => .none
  | some schema =>
    match properties schema with
    | .none => .single []
    | some [(name, property)] =>
      match arrayItemsOfObjects property with
      | some items => .elementOf name (elementColumns names items)
      | .none => .single [outputColumn names (name, property)]
    | some properties => .single (properties.map (outputColumn names))

end Planner

namespace OutputShape

/-- The property over whose elements the result fans out. -/
def fanOut : OutputShape → Option String
  | elementOf property _ => some property
  | _ => Option.none

/-- The columns of a shape. -/
def columns : OutputShape → List Column
  | none => []
  | elementOf _ columns | single columns => columns

end OutputShape

end NoizuMcp.Codegen

namespace NoizuMcp.Server.Sql

open Protocol (Json Fields)

open Codegen (ColumnType Names mapType mapNamedType analyzeOutput arrayItemsOfObjects)

/-! ## Where the types agree -/

/-- The name of the type that the builder reads: the type itself, or the only branch of a union
that is not `"null"`, which may be a union again. -/
def readType (type : Json) : Option String :=
  match type with
  | .str name => some name
  | .arr types =>
    match _h : branches types with
    | [single] => readType single
    | _ => none
  | _ => none
termination_by sizeOf type
decreasing_by
  have hmem : single ∈ types := List.mem_of_mem_filter (_h ▸ List.mem_singleton_self single)
  have hlt := List.sizeOf_lt_of_mem hmem
  simp only [Json.arr.sizeOf_spec]
  omega

/-- The name of the type that the planner reads: none beside a composition keyword, else the type
itself, or the only string of a union that is not `"null"`. -/
def plannedName (schema : Json) : Option String :=
  if Codegen.compositionKeywords.any fun keyword => (schema.get keyword).isSome then none
  else
    match schema.get "type" with
    | some (.str name) => some name
    | some (.arr types) =>
      match (types.filterMap Json.asStr).filter fun name => decide (name ≠ "null") with
      | [only] => some only
      | _ => none
    | _ => none

/-- The types that are not `jsonb` to either side. -/
def scalars : List String := ["string", "integer", "number", "boolean"]

/-- A name that stands for a type of its own. -/
def scalar (name : Option String) : Option String := name.filter fun n => scalars.contains n

/-- Both sides read the same type, or one that is `jsonb` to both, and an `enum` of a string has no
format beside it and no member that is no text. -/
def sameType (float : Rat → String) (schema : Json) : Bool :=
  decide (scalar ((schema.get "type").bind readType) = scalar (plannedName schema)) &&
    (if scalar (plannedName schema) = some "string" then
      match schema.get "enum" with
      | some (.arr (first :: rest)) =>
        decide (stringType (schema.get "format") = .text) &&
          (first :: rest).all fun value => (toText float value).isSome
      | _ => true
    else true)

section Types

variable {float : Rat → String} {schema : Json} {fields : Fields}

/-- What the builder makes of the name it reads. -/
def builtOf (float : Rat → String) (fields : Fields) : Option String → Option SqlType
  | some name => fromNamedType float fields name
  | none => some .jsonb

/-- What the planner makes of the name it reads. -/
def plannedOf (schema : Json) : Option String → ColumnType
  | some name => mapNamedType name schema
  | none => .jsonb

theorem readType_arr (types : List Json) :
    readType (.arr types) =
      match branches types with
      | [single] => readType single
      | _ => none := by
  rw [readType.eq_def]
  change (match _h : branches types with
    | [single] => readType single
    | _ => none) = _
  split <;> simp_all

theorem fromType_eq (type : Json) :
    fromType float fields type = builtOf float fields (readType type) := by
  induction type using readType.induct with
  | case1 name => rw [fromType_str, readType.eq_def, builtOf]
  | case2 types single hsingle ih =>
    rw [fromType_arr, readType_arr, hsingle]
    exact ih
  | case3 types hother =>
    rw [fromType_arr, readType_arr]
    generalize branches types = left at hother
    match left with
    | [] => rfl
    | [single] => exact absurd rfl (hother single)
    | _ :: _ :: _ => rfl
  | case4 type hstr harr =>
    rw [fromType.eq_def, readType.eq_def]
    cases type with
    | str name => exact absurd rfl (hstr name)
    | arr types => exact absurd rfl (harr types)
    | null | bool _ | int _ | float _ | obj _ => rfl

theorem fromJsonSchema_eq :
    fromJsonSchema float (.obj fields) = builtOf float fields ((fields.lookup "type").bind readType) := by
  unfold fromJsonSchema
  dsimp only
  cases fields.lookup "type" with
  | none => rfl
  | some type => exact fromType_eq type

theorem mapType_eq (schema : Json) : mapType schema = plannedOf schema (plannedName schema) := by
  unfold mapType plannedName
  split
  · rfl
  · split
    · rfl
    · split <;> rfl
    · rfl

theorem builtOf_scalar (name : Option String) :
    builtOf float fields (scalar name) = builtOf float fields name := by
  cases name with
  | none => rfl
  | some name =>
    by_cases h : scalars.contains name = true
    · rw [scalar, Option.filter_some_pos h]
    · rw [scalar, Option.filter_some_neg (Bool.eq_false_of_not_eq_true h), builtOf, builtOf, fromNamedType]
      simp only [scalars, List.contains_cons, List.contains_nil, Bool.or_false, Bool.or_eq_true,
        beq_iff_eq, not_or] at h
      simp [h]

theorem plannedOf_scalar (name : Option String) :
    plannedOf schema (scalar name) = plannedOf schema name := by
  cases name with
  | none => rfl
  | some name =>
    by_cases h : scalars.contains name = true
    · rw [scalar, Option.filter_some_pos h]
    · rw [scalar, Option.filter_some_neg (Bool.eq_false_of_not_eq_true h), plannedOf, plannedOf, mapNamedType]
      simp only [scalars, List.contains_cons, List.contains_nil, Bool.or_false, Bool.or_eq_true,
        beq_iff_eq, not_or] at h
      simp [h]

theorem scalar_cases (name : Option String) :
    scalar name = none ∨ scalar name = some "string" ∨ scalar name = some "integer" ∨
      scalar name = some "number" ∨ scalar name = some "boolean" := by
  cases hname : scalar name with
  | none => exact .inl rfl
  | some found =>
    have hmem := (Option.filter_eq_some_iff.mp hname).2
    simpa [scalars] using hmem

/-- The format of a string means the same to both. -/
theorem stringType_toSql (fields : Fields) :
    (stringType (fields.lookup "format")).toSql =
    (mapNamedType "string" (.obj fields)).sqlName := by
  change _ = ColumnType.sqlName (match (fields.lookup "format").bind Json.asStr with
    | some "date-time" => .timestampTz
    | some "date" => .date
    | some "uuid" => .uuid
    | _ => .text)
  cases fields.lookup "format" with
  | none => rfl
  | some format =>
    cases format with
    | str text =>
      change (stringType (some (.str text))).toSql = ColumnType.sqlName (match some text with
        | some "date-time" => .timestampTz
        | some "date" => .date
        | some "uuid" => .uuid
        | _ => .text)
      unfold stringType
      split <;> simp_all [SqlType.toSql, ColumnType.sqlName]
    | null | bool _ | int _ | float _ | arr _ | obj _ => rfl


/-- The scalar that a PostgreSQL type is made of. -/
def scalarOf (sql : String) : Option String :=
  if ["text", "timestamptz", "date", "uuid"].contains sql then some "string"
  else if sql = "bigint" then some "integer"
  else if sql = "double precision" then some "number"
  else if sql = "boolean" then some "boolean"
  else none

theorem scalarOf_stringType (format : Option Json) :
    scalarOf (stringType format).toSql = some "string" := by
  unfold stringType
  split <;> rfl

theorem scalarOf_built {name : Option String} {type : SqlType}
    (h : builtOf float fields (scalar name) = some type) : scalarOf type.toSql = scalar name := by
  rcases scalar_cases name with hname | hname | hname | hname | hname <;> rw [hname] at h ⊢
  · cases h
    rfl
  · rw [builtOf, fromNamedType, if_pos rfl] at h
    split at h
    · obtain ⟨values, -, rfl⟩ := Option.map_eq_some_iff.mp h
      rfl
    · cases h
      exact scalarOf_stringType _
  all_goals
    cases h
    rfl

theorem scalarOf_planned (fields : Fields) (name : Option String) :
    scalarOf (plannedOf (.obj fields) (scalar name)).sqlName = scalar name := by
  rcases scalar_cases name with hname | hname | hname | hname | hname <;> rw [hname]
  · rfl
  · rw [plannedOf, ← stringType_toSql]
    exact scalarOf_stringType _
  all_goals rfl

/-- All texts can be written down just if each of them can. -/
theorem isSome_mapM_iff {α β : Type} {f : α → Option β} {l : List α} :
    (l.mapM f).isSome = true ↔ ∀ a ∈ l, (f a).isSome = true := by
  induction l with
  | nil => simp
  | cons a l ih =>
    rw [List.mapM_cons, List.forall_mem_cons, ← ih]
    cases f a with
    | none => simp
    | some => cases l.mapM f <;> simp

/-- A string gets one type from both just if its `enum` allows it. -/
theorem strings_agree_iff :
    (∃ type, fromNamedType float fields "string" = some type ∧
        type.toSql = (mapNamedType "string" (.obj fields)).sqlName) ↔
      (match fields.lookup "enum" with
      | some (.arr (first :: rest)) =>
        decide (stringType (fields.lookup "format") = .text) &&
          (first :: rest).all fun value => (toText float value).isSome
      | _ => true) = true := by
  rw [fromNamedType, if_pos rfl, ← stringType_toSql]
  split
  · -- with an `enum` the builder gives text, so the format has to be one of text
    rename_i first rest _
    rw [Bool.and_eq_true, decide_eq_true_eq, List.all_eq_true, ← isSome_mapM_iff]
    constructor
    · rintro ⟨type, htype, hsql⟩
      obtain ⟨values, hvalues, rfl⟩ := Option.map_eq_some_iff.mp htype
      refine ⟨?_, by rw [hvalues]; rfl⟩
      unfold stringType at hsql ⊢
      split at hsql <;> simp_all [SqlType.toSql]
    · rintro ⟨hformat, hvalues⟩
      obtain ⟨values, hvalues⟩ := Option.isSome_iff_exists.mp hvalues
      exact ⟨.enum values, by rw [hvalues]; rfl, by rw [hformat]; rfl⟩
  · exact iff_of_true ⟨_, rfl, rfl⟩ rfl

/-- Both sides give a property one type just if it is `sameType`. -/
theorem types_agree_iff (schema : Json) :
    (∃ type, fromJsonSchema float schema = some type ∧ type.toSql = (mapType schema).sqlName) ↔
      sameType float schema = true := by
  cases schema with
  | obj fields =>
    rw [fromJsonSchema_eq, mapType_eq, ← builtOf_scalar, ← plannedOf_scalar, sameType,
      Bool.and_eq_true, decide_eq_true_eq]
    change _ ↔ scalar ((fields.lookup "type").bind readType) = _ ∧ _
    by_cases hsame : scalar ((fields.lookup "type").bind readType) =
        scalar (plannedName (.obj fields))
    · rw [hsame]
      rcases scalar_cases (plannedName (.obj fields)) with hname | hname | hname | hname | hname <;>
        rw [hname]
      · exact iff_of_true ⟨.jsonb, rfl, rfl⟩ ⟨rfl, rfl⟩
      · rw [if_pos rfl, and_iff_right rfl]
        exact strings_agree_iff
      · exact iff_of_true ⟨.bigint, rfl, rfl⟩ ⟨rfl, rfl⟩
      · exact iff_of_true ⟨.double, rfl, rfl⟩ ⟨rfl, rfl⟩
      · exact iff_of_true ⟨.boolean, rfl, rfl⟩ ⟨rfl, rfl⟩
    · refine iff_of_false ?_ fun h => hsame h.1
      rintro ⟨type, hbuilt, hsql⟩
      have hscalar := scalarOf_built hbuilt
      rw [hsql, scalarOf_planned] at hscalar
      exact hsame hscalar.symm
  | null | bool _ | int _ | float _ | str _ | arr _ => exact iff_of_true ⟨.jsonb, rfl, rfl⟩ rfl

end Types

/-! ## Where the fan-out agrees -/

/-- An array of objects with properties is the only property, and the only property, if it is
an array of objects, is one with properties. -/
structure FanOutAlike (schema : Json) : Prop where
  alone : ∀ properties single, propertiesOf schema = some properties →
    arrayOfObjects properties = some single → properties.length = 1
  declared : ∀ name property, propertiesOf schema = some [(name, property)] →
    (arrayItemsOfObjects property).isSome = true → (objectItems property).isSome = true

section FanOut

variable {schema property items : Json} {names : Names} {name : String}

theorem asStr_eq_some {value : Option Json} {text : String} :
    value.bind Json.asStr = some text ↔ value = some (.str text) := by
  cases value with
  | none => simp
  | some value => cases value <;> simp [Json.asStr]

/-- What the builder takes as items the planner takes as well. -/
theorem arrayItemsOfObjects_of_objectItems (h : objectItems property = some items) :
    arrayItemsOfObjects property = some items := by
  unfold objectItems at h
  split at h
  · rename_i harray
    obtain ⟨hitems, hobject⟩ := Option.filter_eq_some_iff.mp h
    rw [Bool.and_eq_true, decide_eq_true_eq] at hobject
    rw [arrayItemsOfObjects, if_pos (asStr_eq_some.mpr harray)]
    exact Option.filter_eq_some_iff.mpr
      ⟨hitems, decide_eq_true (asStr_eq_some.mpr hobject.1)⟩
  · cases h

theorem arrayOfObjects_singleton (name : String) (property : Json) :
    arrayOfObjects [(name, property)] = (objectItems property).map fun items => (name, items) := by
  unfold arrayOfObjects
  cases hitems : objectItems property with
  | none | some => simp [hitems]

/-- The planner looks at a property that is alone only. -/
theorem analyzeOutput_fanOut_singleton (h : propertiesOf schema = some [(name, property)]) :
    (analyzeOutput names (some schema)).fanOut =
    (arrayItemsOfObjects property).map fun _ => name := by
  have h' : Codegen.properties schema = some [(name, property)] := h
  simp only [analyzeOutput, h']
  cases arrayItemsOfObjects property with
  | none => rfl
  | some => rfl

theorem analyzeOutput_of_many {first second : String × Json} {rest : Fields}
    (h : propertiesOf schema = some (first :: second :: rest)) :
    analyzeOutput names (some schema) =
      .single ((first :: second :: rest).map (Codegen.outputColumn names)) := by
  have h' : Codegen.properties schema = some (first :: second :: rest) := h
  simp only [analyzeOutput, h']

theorem FanOutAlike.sameItems (h : FanOutAlike schema)
    (hproperties : propertiesOf schema = some [(name, property)]) :
    arrayItemsOfObjects property = objectItems property := by
  cases hobject : objectItems property with
  | some => exact arrayItemsOfObjects_of_objectItems hobject
  | none =>
    cases hitems : arrayItemsOfObjects property with
    | none => rfl
    | some =>
      have hsome := h.declared name property hproperties (hitems ▸ rfl)
      rw [hobject] at hsome
      cases hsome

theorem FanOutAlike.many {first second : String × Json} {rest : Fields} (h : FanOutAlike schema)
    (hproperties : propertiesOf schema = some (first :: second :: rest)) :
    arrayOfObjects (first :: second :: rest) = none := by
  cases hsingle : arrayOfObjects (first :: second :: rest) with
  | none => rfl
  | some single => simpa using h.alone _ single hproperties hsingle

/-- The two decide alike just if the schema is `FanOutAlike`. -/
theorem fanOut_eq_iff (schema : Json) (names : Names) :
    fanOut schema = (analyzeOutput names (some schema)).fanOut ↔ FanOutAlike schema := by
  cases hproperties : propertiesOf schema with
  | none =>
    have h' : Codegen.properties schema = none := hproperties
    refine iff_of_true ?_ ⟨?_, ?_⟩
    · simp only [fanOut, hproperties, analyzeOutput, h']
      rfl
    · intro properties single h
      cases hproperties.symm.trans h
    · intro name property h
      cases hproperties.symm.trans h
  | some properties =>
    rw [fanOut, hproperties, Option.bind_some]
    match properties with
    | [] =>
      have h' : Codegen.properties schema = some [] := hproperties
      refine iff_of_true ?_ ⟨?_, ?_⟩
      · simp only [analyzeOutput, h']
        rfl
      · intro properties single h hsingle
        cases hproperties.symm.trans h
        cases hsingle
      · intro name property h
        cases hproperties.symm.trans h
    | [(name, property)] =>
      rw [arrayOfObjects_singleton, analyzeOutput_fanOut_singleton hproperties]
      constructor
      · intro heq
        constructor
        · intro properties single h _
          cases hproperties.symm.trans h
          rfl
        · intro name' property' h hitems
          cases hproperties.symm.trans h
          obtain ⟨items, hitems⟩ := Option.isSome_iff_exists.mp hitems
          rw [hitems] at heq
          cases hobject : objectItems property with
          | none =>
            rw [hobject] at heq
            cases heq
          | some => rfl
      · intro halike
        rw [halike.sameItems hproperties]
        cases objectItems property with
        | none | some => rfl
    | first :: second :: rest =>
      rw [analyzeOutput_of_many hproperties]
      constructor
      · intro heq
        constructor
        · intro properties single h hsingle
          cases hproperties.symm.trans h
          rw [hsingle] at heq
          cases heq
        · intro name property h
          cases hproperties.symm.trans h
      · intro halike
        rw [halike.many hproperties]
        rfl

end FanOut

/-! ## The columns -/

/-- A property and its PostgreSQL type, as either side has it. -/
def Column.typed (column : Column) : String × String := (column.name, column.type.toSql)

/-- A property and the type that the planner maps its schema to. -/
def plannedType (property : String × Json) : String × String :=
  (property.1, (mapType property.2).sqlName)

/-- A column of the planner as its property and type. -/
def typedPlan (column : Codegen.Column) : String × String :=
  (column.property, column.pgType.sqlName)

/-- The columns in the order of their names, as the builder has them. -/
def byName (columns : List (String × String)) : List (String × String) :=
  columns.insertionSort fun p p' => p.1 ≤ p'.1

/-- The properties that are the columns of a row. -/
def rowProperties (schema : Json) : Fields :=
  match (propertiesOf schema).bind arrayOfObjects with
  | some (_, items) => (propertiesOf items).getD []
  | none => (propertiesOf schema).getD []

section Columns

variable {float : Rat → String} {schema : Json} {names : Names}

/-- The builder gives the properties their planned types, one by one, just if each of them is
`sameType`. -/
theorem mapM_column_iff {properties : Fields} :
    (properties.mapM (column float)).map (·.map Column.typed) =
        some (properties.map plannedType) ↔
      ∀ p ∈ properties, sameType float p.2 = true := by
  induction properties with
  | nil => simp
  | cons p rest ih =>
    rw [List.forall_mem_cons, ← ih, ← types_agree_iff, List.mapM_cons, column]
    cases fromJsonSchema float p.2 with
    | none => simp
    | some type =>
      cases rest.mapM (column float) with
      | none => simp
      | some columns => simp [Column.typed, plannedType]

/-- The columns of a schema are the planned ones just if every property is `sameType`. -/
theorem schemaColumns_iff :
    (schemaColumns float schema).map (·.map Column.typed) =
        some (byName (((propertiesOf schema).getD []).map plannedType)) ↔
      ∀ p ∈ (propertiesOf schema).getD [], sameType float p.2 = true := by
  rw [schemaColumns]
  cases hproperties : propertiesOf schema with
  | none => exact iff_of_true rfl (List.forall_mem_nil _)
  | some properties =>
    have hsort := List.perm_insertionSort (fun p p' : String × Json => p.1 ≤ p'.1) properties
    have hsorted : byName (properties.map plannedType) =
        (properties.insertionSort fun p p' => p.1 ≤ p'.1).map plannedType :=
      (List.map_insertionSort _ _ plannedType properties fun _ _ _ _ => Iff.rfl).symm
    dsimp only [Option.getD_some]
    rw [hsorted, mapM_column_iff]
    exact forall_congr' fun p => imp_congr_left hsort.mem_iff

theorem outputColumns_eq (schema : Json) :
    outputColumns float schema =
      match (propertiesOf schema).bind arrayOfObjects with
      | some (_, items) => schemaColumns float items
      | none => schemaColumns float schema := by
  unfold outputColumns
  cases hproperties : propertiesOf schema with
  | none => rw [Option.bind_none, schemaColumns, hproperties]
  | some => rfl

/-- What the planner makes columns of, if it fans out as the builder does. -/
theorem planned_columns (halike : FanOutAlike schema) :
    (analyzeOutput names (some schema)).columns.map typedPlan =
      (rowProperties schema).map plannedType := by
  have htyped : ∀ properties : Fields,
      (properties.map (Codegen.outputColumn names)).map typedPlan =
        properties.map plannedType := by
    intro properties
    rw [List.map_map]
    rfl
  unfold rowProperties
  cases hproperties : propertiesOf schema with
  | none =>
    have h' : Codegen.properties schema = none := hproperties
    simp only [analyzeOutput, h']
    rfl
  | some properties =>
    rw [Option.bind_some]
    match properties with
    | [] =>
      have h' : Codegen.properties schema = some [] := hproperties
      simp only [analyzeOutput, h']
      rfl
    | [(name, property)] =>
      have h' : Codegen.properties schema = some [(name, property)] := hproperties
      simp only [analyzeOutput, h', arrayOfObjects_singleton, halike.sameItems hproperties]
      cases objectItems property with
      | some => exact htyped _
      | none => rfl
    | first :: second :: rest =>
      rw [analyzeOutput_of_many hproperties, halike.many hproperties]
      exact htyped _

end Columns

/-- The builder and the planner decide on the same fan-out and give every property of the
input and of a row the same type if, and only if, the output is `FanOutAlike` and every
property `sameType`. -/
theorem columns_agree_iff (float : Rat → String) (names : Names) (input : Json)
    (output : Option Json) :
    (fanOut (output.getD .null) = (analyzeOutput names output).fanOut ∧
      (schemaColumns float input).map (·.map Column.typed) =
        some (byName (((propertiesOf input).getD []).map plannedType)) ∧
      (outputColumns float (output.getD .null)).map (·.map Column.typed) =
        some (byName ((analyzeOutput names output).columns.map typedPlan))) ↔
    FanOutAlike (output.getD .null) ∧
      (∀ p ∈ (propertiesOf input).getD [], sameType float p.2 = true) ∧
      ∀ p ∈ rowProperties (output.getD .null), sameType float p.2 = true := by
  rw [schemaColumns_iff]
  cases output with
  | none =>
    have hnone : FanOutAlike .null := (fanOut_eq_iff .null names).mp rfl
    exact ⟨fun h => ⟨hnone, h.2.1, List.forall_mem_nil _⟩, fun h => ⟨rfl, h.2.1, rfl⟩⟩
  | some schema =>
    rw [Option.getD_some, fanOut_eq_iff]
    refine and_congr_right fun halike => and_congr_right fun _ => ?_
    rw [planned_columns halike, outputColumns_eq, rowProperties]
    cases (propertiesOf schema).bind arrayOfObjects with
    | none | some => exact schemaColumns_iff

/-- A schema of one type, with other keywords. -/
def typed (type : Json) (others : Fields) : Json := .obj (("type", type) :: others)

/-- A list of documents, each with a title and a time. -/
def documents : Json :=
  .obj [("properties", .obj [("documents", typed (.str "array") [("items",
    typed (.str "object") [("properties", .obj [
      ("title", typed (.arr [.str "string", .str "null"]) []),
      ("changed", typed (.str "string") [("format", .str "date-time")])])])])])]

/-- The same with their number beside it. -/
def counted : Json :=
  .obj [("properties", .obj [("documents", typed (.str "array") [("items",
    typed (.str "object") [("properties", .obj [])])]), ("total", typed (.str "integer") [])])]

/-- How floats, names and values are written in the examples below. -/
def noFloat (_ : Rat) : String := ""

def sameNames : Names := ⟨id, fun _ => ""⟩

/-- The documents fan out on both sides, with the same types. -/
example : fanOut documents = some "documents" ∧
    (analyzeOutput sameNames (some documents)).columns.map typedPlan =
      [("title", "text"), ("changed", "timestamptz")] ∧
    ((rowProperties documents).all fun p => sameType noFloat p.2) = true := by decide +kernel

/-- With the number beside them the documents fan out for the builder only. A composition
keyword beside a type, an `enum` beside a format, a union with a member that is no string and
a union inside a union each give two types, and an `enum` with an object gives the builder
none. -/
theorem columns_differ :
    (fanOut counted = some "documents" ∧
      (analyzeOutput sameNames (some counted)).fanOut = none) ∧
    (fromJsonSchema noFloat (typed (.str "string") [("oneOf", .arr [])]) = some .text ∧
      mapType (typed (.str "string") [("oneOf", .arr [])]) = .jsonb) ∧
    (fromJsonSchema noFloat (typed (.str "string")
        [("format", .str "date"), ("enum", .arr [.str "2024-01-01"])]) =
          some (.enum ["2024-01-01"]) ∧
      mapType (typed (.str "string")
        [("format", .str "date"), ("enum", .arr [.str "2024-01-01"])]) = .date) ∧
    (fromJsonSchema noFloat (typed (.arr [.str "string", .int 7]) []) = some .jsonb ∧
      mapType (typed (.arr [.str "string", .int 7]) []) = .text) ∧
    (fromJsonSchema noFloat (typed (.arr [.arr [.str "integer"]]) []) = some .bigint ∧
      mapType (typed (.arr [.arr [.str "integer"]]) []) = .jsonb) ∧
    (fromJsonSchema noFloat (typed (.str "string") [("enum", .arr [.obj []])]) = none ∧
      mapType (typed (.str "string") [("enum", .arr [.obj []])]) = .text) := by
  decide +kernel

end NoizuMcp.Server.Sql
