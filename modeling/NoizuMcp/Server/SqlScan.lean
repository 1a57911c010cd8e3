import NoizuMcp.Protocol.JsonRpc

/-!
# `sql/scan`

`Features.SQL.scan/3` reads the parameters of a request, hands them to the server's
`handle_sql_scan/3` and writes the rows it returns, which are maps, as arrays in the order
of the columns. What the handler does is left open here: everything in this file holds for
any handler. Keying the rows of an answer by their columns and rendering them once more
gives the same answer (`renderRows_rekey`).
-/

set_option autoImplicit false

namespace NoizuMcp.Server.Sql

open Protocol (Json Fields RpcError)

/-! ## Reading a request -/

/-- The two directions of a sort. -/
inductive Direction where
  | asc
  | desc
  deriving DecidableEq

/-- The options of a scan. -/
structure Opts where
  quals : Json
  columns : Option (List String)
  sort : List (String × Direction)
  limit : Option Int
  cursor : Option String
  deriving DecidableEq

/-- `inspect/1`, which the texts of errors use. -/
structure Printer where
  json : Json → String
  error : RpcError → String

/-- `params[key]`. -/
def field (params : Fields) (key : String) : Json := (params.lookup key).getD .null

/-- The strings of a list that holds nothing else. -/
def strings (items : List Json) : Option (List String) := items.mapM Json.asStr

/-- A list of texts, if there is one. -/
def stringList (label : String) : Json → Except RpcError (Option (List String))
  | .null => .ok none
  | .arr items =>
    match strings items with
    | some values => .ok (some values)
    | none => .error (.invalidParams (label ++ " must be a list of strings"))
  | _ => .error (.invalidParams (label ++ " must be a list of strings"))

/-- One entry of `sort`. A direction that is neither of the two reads as ascending. -/
def sortEntry (entry : Json) : Option (String × Direction) :=
  match entry.get "column" with
  | some (.str column) =>
    some (column, if entry.get "direction" = some (.str "desc") then .desc else .asc)
  | _ => none

/-- `decode_sort/1` on a list. -/
def sortEntries (printer : Printer) : List Json → Except RpcError (List (String × Direction))
  | [] => .ok []
  | entry :: rest =>
    match sortEntry entry with
    | none =>
      .error (.invalidParams ("each sort entry needs a string \"column\" and an optional " ++
        "\"direction\" of asc|desc, got: " ++ printer.json entry))
    | some read =>
      match sortEntries printer rest with
      | .ok reads => .ok (read :: reads)
      | .error error => .error error

/-- `sort` of a request. -/
def decodeSort (printer : Printer) : Json → Except RpcError (List (String × Direction))
  | .null => .ok []
  | .arr entries => sortEntries printer entries
  | _ => .error (.invalidParams "sort must be a list")

/-- More rows than these are never asked for. -/
def maxLimit : Int := 10000

/-- A limit above the largest is cut to it. -/
def decodeLimit (printer : Printer) : Json → Except RpcError (Option Int)
  | .null => .ok none
  | .int limit =>
    if 0 < limit then .ok (some (min limit maxLimit))
    else .error (.invalidParams
      ("limit must be a positive integer, got: " ++ printer.json (.int limit)))
  | other =>
    .error (.invalidParams ("limit must be a positive integer, got: " ++ printer.json other))

/-- `cursor` of a request. -/
def decodeCursor (printer : Printer) : Json → Except RpcError (Option String)
  | .null => .ok none
  | .str cursor => .ok (some cursor)
  | other => .error (.invalidParams ("cursor must be a string, got: " ++ printer.json other))

/-- The options of a scan; the first that is malformed is the error. -/
def scanOpts (printer : Printer) (params : Fields) : Except RpcError Opts :=
  match stringList "columns" (field params "columns") with
  | .error error => .error error
  | .ok columns =>
    match decodeSort printer (field params "sort") with
    | .error error => .error error
    | .ok sort =>
      match decodeLimit printer (field params "limit") with
      | .error error => .error error
      | .ok limit =>
        match decodeCursor printer (field params "cursor") with
        | .error error => .error error
        | .ok cursor =>
          .ok ⟨Json.orElse (params.lookup "quals") (.arr []), columns, sort, limit, cursor⟩

/-- `fetch_relation_param/2`. -/
def fetchRelation (method : String) (params : Fields) : Except RpcError String :=
  match field params "relation" with
  | .str relation =>
    if relation = "" then .error (.invalidParams (method ++ " requires a relation name"))
    else .ok relation
  | _ => .error (.invalidParams (method ++ " requires a relation name"))

/-- What reads as the options of a scan. -/
structure Read (printer : Printer) (params : Fields) (opts : Opts) : Prop where
  quals : opts.quals = Json.orElse (params.lookup "quals") (.arr [])
  columns : stringList "columns" (field params "columns") = .ok opts.columns
  sort : decodeSort printer (field params "sort") = .ok opts.sort
  limit : decodeLimit printer (field params "limit") = .ok opts.limit
  cursor : decodeCursor printer (field params "cursor") = .ok opts.cursor

variable {params : Fields} {printer : Printer}

theorem scanOpts_eq_ok {opts : Opts} :
    scanOpts printer params = .ok opts ↔ Read printer params opts := by
  constructor
  · intro h
    unfold scanOpts at h
    split at h
    case h_1 => cases h
    case h_2 hcolumns =>
      split at h
      case h_1 => cases h
      case h_2 hsort =>
        split at h
        case h_1 => cases h
        case h_2 hlimit =>
          split at h
          case h_1 => cases h
          case h_2 hcursor =>
            cases h
            exact ⟨rfl, hcolumns, hsort, hlimit, hcursor⟩
  · rintro ⟨hquals, hcolumns, hsort, hlimit, hcursor⟩
    unfold scanOpts
    rw [hcolumns, hsort, hlimit, hcursor, ← hquals]

/-- A limit that was read lies within the bounds. -/
theorem decodeLimit_bounds {value : Json} {limit : Int}
    (h : decodeLimit printer value = .ok (some limit)) : 0 < limit ∧ limit ≤ maxLimit := by
  unfold decodeLimit at h
  split at h
  case h_1 => cases h
  case h_3 => cases h
  case h_2 asked =>
    split at h
    case isFalse => cases h
    case isTrue hpos =>
      cases h
      exact ⟨Int.lt_min.mpr ⟨hpos, by decide⟩, Int.min_le_right asked maxLimit⟩

theorem stringList_strings (label : String) (values : List String) :
    stringList label (.arr (values.map .str)) = .ok (some values) := by
  have hstrings : strings (values.map .str) = some values := by
    unfold strings
    induction values with
    | nil => rfl
    | cons _ _ ih =>
      rw [List.map_cons, List.mapM_cons, ih]
      rfl
  rw [stringList, hstrings]

/-- The errors of reading the options are all of one kind. -/
theorem scanOpts_error {error : RpcError} (h : scanOpts printer params = .error error) :
    error.reason = .invalidParams := by
  have hcolumns : ∀ value error, stringList "columns" value = .error error →
      error.reason = .invalidParams := by
    intro value error h
    unfold stringList at h
    split at h
    case h_1 => cases h
    case h_2 =>
      split at h <;> cases h
      rfl
    case h_3 =>
      cases h
      rfl
  have hentries : ∀ entries error, sortEntries printer entries = .error error →
      error.reason = .invalidParams := by
    intro entries error h
    induction entries with
    | nil => cases h
    | cons _ _ ih =>
      unfold sortEntries at h
      split at h
      case h_1 =>
        cases h
        rfl
      case h_2 =>
        split at h
        case h_1 => cases h
        case h_2 hlater =>
          cases h
          exact ih hlater
  unfold scanOpts at h
  split at h
  case h_1 =>
    cases h
    exact hcolumns _ _ (by assumption)
  case h_2 =>
    split at h
    case h_1 hsort =>
      cases h
      unfold decodeSort at hsort
      split at hsort
      case h_1 => cases hsort
      case h_2 entries _ => exact hentries entries _ hsort
      case h_3 =>
        cases hsort
        rfl
    case h_2 =>
      split at h
      case h_1 hlimit =>
        cases h
        unfold decodeLimit at hlimit
        split at hlimit
        case h_1 => cases hlimit
        case h_2 =>
          split at hlimit <;> cases hlimit
          rfl
        case h_3 =>
          cases hlimit
          rfl
      case h_2 =>
        split at h
        case h_2 => cases h
        case h_1 hcursor =>
          cases h
          unfold decodeCursor at hcursor
          split at hcursor <;> cases hcursor
          rfl

/-! ## Answering it -/

/-- A row, keyed by column. Of two entries for one key the first counts. -/
abbrev RowMap := List (Json × Json)

/-- What `handle_sql_scan/3` can return. Anything else is printed in the error it leads to;
a handler may also raise. -/
inductive Handled where
  | rows (columns : List Json) (rows : List RowMap) (nextCursor : Json)
  | error (error : RpcError)
  | other (printed : String)
  | raised

/-- The result of a scan. -/
structure Answer where
  columns : List Json
  rows : List (List Json)
  nextCursor : Json
  deriving DecidableEq

/-- The rows as lists of values, in the order of the columns. -/
def renderRows (columns : List Json) (rows : List RowMap) (nextCursor : Json) : Answer where
  columns := columns
  rows := rows.map fun row => columns.map fun column => (row.lookup column).getD .null
  nextCursor := nextCursor

/-- `scan/3`, and the reply of the session to a handler that raises. -/
def scan (printer : Printer) (handler : String → Opts → Handled) (params : Fields) :
    Except RpcError Answer :=
  match fetchRelation "sql/scan" params with
  | .error error => .error error
  | .ok relation =>
    match scanOpts printer params with
    | .error error => .error error
    | .ok opts =>
      match handler relation opts with
      | .rows columns rows nextCursor => .ok (renderRows columns rows nextCursor)
      | .error error => .error error
      | .other printed => .error (.internal ("sql/scan handler returned " ++ printed))
      | .raised => .error (.internal "Request handler failed")

/-- The result map. -/
def Answer.wire (answer : Answer) : Fields :=
  [("columns", .arr answer.columns), ("rows", .arr (answer.rows.map .arr)),
    ("nextCursor", answer.nextCursor)]

/-! ## Rendering twice -/

/-- A row of an answer as a map again. For a column that occurs twice the last cell counts. -/
def rekey (columns row : List Json) : RowMap := (columns.zip row).reverse

theorem zip_map_self {α β : Type} (f : α → β) (items : List α) :
    items.zip (items.map f) = items.map fun item => (item, f item) := by
  induction items with
  | nil => rfl
  | cons _ _ ih => rw [List.map_cons, List.zip_cons_cons, List.map_cons, ih]

/-- All cells that a rendered row has for one column are equal, so it does not matter
which of them counts. -/
theorem lookup_rekey {columns : List Json} (f : Json → Json) {column : Json}
    (h : column ∈ columns) : (rekey columns (columns.map f)).lookup column = some (f column) := by
  have hcells : ∀ cells : List Json, column ∈ cells →
      (cells.map fun item => (item, f item)).lookup column = some (f column) := by
    intro cells hmem
    induction cells with
    | nil => cases hmem
    | cons cell _ ih =>
      rw [List.map_cons, List.lookup_cons]
      by_cases heq : column = cell
      · simp [heq]
      · rw [beq_eq_false_iff_ne.mpr heq]
        exact ih ((List.mem_cons.mp hmem).resolve_left heq)
  rw [rekey, zip_map_self, ← List.map_reverse]
  exact hcells _ (List.mem_reverse.mpr h)

theorem renderRows_rekey (columns : List Json) (rows : List RowMap) (nextCursor : Json) :
    renderRows columns ((renderRows columns rows nextCursor).rows.map (rekey columns)) nextCursor =
      renderRows columns rows nextCursor := by
  unfold renderRows
  congr 1
  rw [List.map_map, List.map_map]
  refine List.map_congr_left fun row _ => ?_
  refine List.map_congr_left fun column hcolumn => ?_
  rw [lookup_rekey (fun column => (row.lookup column).getD .null) hcolumn]
  rfl

end NoizuMcp.Server.Sql
