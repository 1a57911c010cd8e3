import NoizuMcp.Engine.Sessions
import NoizuMcp.Server.SqlScan

/-!
# Scans of an upstream's relations

`sql/scan` on `<server>.<relation>` is passed on to the upstream. The engine reads the
request, writes it again for the upstream, keys the rows of the answer by their columns
and renders them like its own. For an upstream that answers through this library the
answer is the one it would give directly, if it gives one and the request has no sort
(`federated_scan_alike_iff`).

A sort has been read into pairs of a column and a direction, and these have no JSON form:
the client stops on them, and with it the session and the request. An error of the
upstream comes back as a bare struct, which `scan/3` takes for a handler's mistake, so
every error turns into an internal one.
-/

set_option autoImplicit false

namespace NoizuMcp.Engine

open Foundation

open Protocol (Json Fields RpcError Reason)

open Server.Sql

/-! ## The request to the upstream -/

/-- `Jason` on an entry of the sort, a tuple: it raises. -/
def encodeEntry (_ : String × Direction) : Option Json := none

/-- `wire_params/2`, as JSON. It fails if something has no JSON form. -/
def wireParams (relation : String) (opts : Opts) : Option Fields :=
  (opts.sort.mapM encodeEntry).map fun sort =>
    [("relation", Json.str relation), ("quals", Json.orElse (some opts.quals) (.arr []))] ++
      (opts.columns.map fun columns => ("columns", Json.arr (columns.map .str))).toList ++
      [("sort", .arr sort)] ++
      (opts.limit.map fun limit => ("limit", Json.int limit)).toList ++
      (opts.cursor.map fun cursor => ("cursor", Json.str cursor)).toList

/-! ## The answer -/

/-- The items of a list. -/
def asArr : Json → Option (List Json)
  | .arr items => some items
  | _ => none

/-- `upstream_error/1`: the error is returned without `{:error, _}` around it. -/
def upstreamError (printer : Printer) (message : String) : Handled :=
  .other (printer.error (.internal message))

/-- `sql_scan_rows/1`. A result whose columns or rows are no lists makes it raise. -/
def sqlScanRows (printer : Printer) (result : Fields) : Handled :=
  match result.lookup "columns", result.lookup "rows" with
  | some (.arr columns), some (.arr rows) =>
    match rows.mapM asArr with
    | some rows => .rows columns (rows.map (rekey columns)) (field result "nextCursor")
    | none => .raised
  | some _, some _ => .raised
  | _, _ => upstreamError printer "upstream sql/scan returned an unexpected shape"

/-- The status as the row shows it. -/
def Status.text : Status → String
  | .connecting => "connecting"
  | .ready => "ready"
  | .error => "error"

/-- `proxy_sql_scan/3` on the pooled session, and what becomes of the sessions. -/
def proxySqlScan (printer : Printer) (sessions : Sessions)
    (remote : String → String → Opts → Handled) (pid : Nat) (relation : String) (opts : Opts) :
    Handled × Sessions :=
  match sessions.get? pid with
  | none => (.raised, sessions)
  | some session =>
    match session.client with
    | none =>
      (upstreamError printer
        ("upstream " ++ session.row.name ++ " is " ++ session.status.text), sessions)
    | some _ =>
      match wireParams relation opts with
      -- the client raises in its own process; the session and the request go with it
      | none => (.raised, sessions.kill pid)
      | some params =>
        match scan printer (remote session.row.name) params with
        | .ok answer => (sqlScanRows printer answer.wire, sessions)
        | .error error =>
          (upstreamError printer ("upstream request failed: " ++
            printer.error (RpcError.fromMap error.toMap)), sessions)

/-- `handle_sql_scan/3` of the engine. What no upstream serves is its own. -/
def handleSqlScan (printer : Printer) (sessions : Sessions)
    (remote : String → String → Opts → Handled) (default : String → Opts → Handled)
    (relation : String) (opts : Opts) : Handled × Sessions :=
  match split relation with
  | some (server, rest) =>
    if server = "engine" then (default relation opts, sessions)
    else match sessions.sessionPid (.pooled server) with
      | some pid => proxySqlScan printer sessions remote pid rest opts
      | none => (default relation opts, sessions)
  | none => (default relation opts, sessions)

/-- `sql/scan` at the engine. -/
def federatedScan (printer : Printer) (sessions : Sessions)
    (remote : String → String → Opts → Handled) (default : String → Opts → Handled)
    (params : Fields) : Except RpcError Answer :=
  scan printer
    (fun relation opts => (handleSqlScan printer sessions remote default relation opts).1) params

/-! ## Reading the request again -/

section Requests

variable {printer : Printer} {params : Fields} {opts : Opts} {relation : String}

/-- A request for a relation. -/
def named (relation : String) (params : Fields) : Fields := ("relation", .str relation) :: params

theorem scanOpts_named : scanOpts printer (named relation params) = scanOpts printer params := rfl

theorem fetchRelation_named (method : String) :
    fetchRelation method (named relation params) =
      if relation = "" then .error (.invalidParams (method ++ " requires a relation name"))
      else .ok relation := rfl

theorem wireParams_nil (hsort : opts.sort = []) :
    wireParams relation opts = some (named relation
      (("quals", Json.orElse (some opts.quals) (.arr [])) ::
        (opts.columns.map fun columns => ("columns", Json.arr (columns.map .str))).toList ++
        [("sort", .arr [])] ++
        (opts.limit.map fun limit => ("limit", Json.int limit)).toList ++
        (opts.cursor.map fun cursor => ("cursor", Json.str cursor)).toList)) := by
  unfold wireParams
  rw [hsort]
  rfl

/-- `value || default` twice is once. -/
theorem orElse_orElse (value : Option Json) (default : Json) :
    Json.orElse (some (Json.orElse value default)) default = Json.orElse value default := by
  have hself : Json.orElse (some default) default = default := by
    cases default with
    | bool b => cases b <;> rfl
    | _ => rfl
  cases value with
  | none => exact hself
  | some value =>
    cases value with
    | null => exact hself
    | bool b =>
      cases b with
      | false => exact hself
      | true => rfl
    | _ => rfl

/-- The upstream reads what the engine read. -/
theorem scanOpts_wireParams {wire : Fields} (hread : scanOpts printer params = .ok opts)
    (hsort : opts.sort = []) (hwire : wireParams relation opts = some wire) :
    scanOpts printer wire = .ok opts ∧
      fetchRelation "sql/scan" wire = fetchRelation "sql/scan" (named relation params) := by
  rw [wireParams_nil hsort] at hwire
  cases hwire
  refine ⟨?_, rfl⟩
  have read := scanOpts_eq_ok.mp hread
  rw [scanOpts_eq_ok]
  obtain ⟨quals, columns, sort, limit, cursor⟩ := opts
  subst hsort
  have hlimit : ∀ value, limit = some value →
      decodeLimit printer (.int value) = .ok (some value) := by
    rintro value rfl
    obtain ⟨hpos, hmax⟩ := decodeLimit_bounds read.limit
    rw [decodeLimit, if_pos hpos, Int.min_eq_left hmax]
  have hquals : quals = Json.orElse (some (Json.orElse (some quals) (.arr []))) (.arr []) := by
    have hread : quals = Json.orElse (params.lookup "quals") (.arr []) := read.quals
    rw [orElse_orElse, hread, orElse_orElse]
  -- which of the optional fields are there decides where the others are found
  cases columns with
  | none =>
    cases limit with
    | none => cases cursor <;> exact ⟨hquals, rfl, rfl, rfl, rfl⟩
    | some value => cases cursor <;> exact ⟨hquals, rfl, rfl, hlimit value rfl, rfl⟩
  | some columns =>
    have hcolumns := stringList_strings "columns" columns
    cases limit with
    | none => cases cursor <;> exact ⟨hquals, hcolumns, rfl, rfl, rfl⟩
    | some value => cases cursor <;> exact ⟨hquals, hcolumns, rfl, hlimit value rfl, rfl⟩

theorem sqlScanRows_wire (answer : Answer) :
    sqlScanRows printer answer.wire =
      .rows answer.columns (answer.rows.map (rekey answer.columns)) answer.nextCursor := by
  have hrows : ∀ rows : List (List Json), (rows.map Json.arr).mapM asArr = some rows := by
    intro rows
    induction rows with
    | nil => rfl
    | cons _ _ ih =>
      rw [List.map_cons, List.mapM_cons, ih]
      rfl
  simp only [sqlScanRows, Answer.wire, List.lookup_cons, String.reduceBEq, hrows]
  rfl

/-! ## The two answers -/

/-- The same columns, rows and cursor, or the same kind of error. -/
def Alike : Except RpcError Answer → Except RpcError Answer → Prop
  | .ok answer, .ok answer' => answer = answer'
  | .error error, .error error' => error.reason = error'.reason
  | _, _ => False

/-- The request cannot be read, or it has no sort and the upstream answers it, or the
upstream fails with an internal error. -/
def Carried (printer : Printer) (params : Fields) (direct : Except RpcError Answer) : Prop :=
  match scanOpts printer params, direct with
  | .error _, _ => True
  | .ok opts, .ok _ => opts.sort = []
  | .ok _, .error error => error.reason = .internal

/-- The upstream is connected through its pooled session. -/
structure Connected (sessions : Sessions) (server : String) (pid : Nat) (session : Session) :
    Prop where
  bare : '.' ∉ server.toList
  foreign : server ≠ "engine"
  pooled : sessions.sessionPid (.pooled server) = some pid
  alive : sessions.get? pid = some session
  client : session.client.isSome

variable {sessions : Sessions} {server : String} {pid : Nat} {session : Session}
  {remote : String → String → Opts → Handled} {default : String → Opts → Handled}

section

variable (h : Connected sessions server pid session)

include h

theorem Connected.name : session.row.name = server := by
  have hkey := (Sessions.stands_sessionPid h.pooled).holds session (Processes.mem_of_get? h.alive)
  exact (Session.key_eq_pooled_iff.mp hkey).1

theorem Connected.handleSqlScan :
    handleSqlScan printer sessions remote default (join server relation) opts =
      match wireParams relation opts with
      | none => (.raised, sessions.kill pid)
      | some params =>
        match scan printer (remote server) params with
        | .ok answer => (sqlScanRows printer answer.wire, sessions)
        | .error error =>
          (upstreamError printer ("upstream request failed: " ++
            printer.error (RpcError.fromMap error.toMap)), sessions) := by
  obtain ⟨connection, hclient⟩ := Option.isSome_iff_exists.mp h.client
  simp only [Engine.handleSqlScan, split_join h.bare, if_neg h.foreign, h.pooled, proxySqlScan,
    h.alive, hclient, h.name]

/-- The engine gets past its own reading of the request just if the options are read: the
name of a federated relation is never empty. -/
theorem federatedScan_named :
    federatedScan printer sessions remote default (named (join server relation) params) =
      match scanOpts printer params with
      | .error error => .error error
      | .ok opts =>
        match (Engine.handleSqlScan printer sessions remote default (join server relation)
          opts).1 with
        | .rows columns rows nextCursor => .ok (renderRows columns rows nextCursor)
        | .error error => .error error
        | .other printed => .error (.internal ("sql/scan handler returned " ++ printed))
        | .raised => .error (.internal "Request handler failed") := by
  have hne : join server relation ≠ "" := by
    intro hempty
    have hsplit := split_join h.bare relation
    rw [hempty] at hsplit
    cases hsplit
  simp only [federatedScan, scan, fetchRelation_named, if_neg hne]
  all_goals rfl

end

/-- An answer of this library comes back as it was. -/
theorem scan_rekey {handler : String → Opts → Handled} {answer : Answer}
    (h : scan printer handler params = .ok answer) :
    renderRows answer.columns (answer.rows.map (rekey answer.columns)) answer.nextCursor =
      answer := by
  unfold scan at h
  split at h
  case h_1 => cases h
  case h_2 =>
    split at h
    case h_1 => cases h
    case h_2 =>
      split at h
      case h_1 columns rows nextCursor _ =>
        cases h
        exact renderRows_rekey columns rows nextCursor
      all_goals cases h

/-- A scan of `<server>.<relation>` at the engine is answered like a scan of `<relation>`
at the upstream just if the request cannot be read, or has no sort and is answered, or
fails at the upstream with an internal error. -/
theorem federated_scan_alike_iff (h : Connected sessions server pid session) :
    Alike (scan printer (remote server) (named relation params))
        (federatedScan printer sessions remote default (named (join server relation) params)) ↔
      Carried printer params (scan printer (remote server) (named relation params)) := by
  rw [federatedScan_named h]
  cases hopts : scanOpts printer params with
  | error error =>
    -- both sides read the options with the same code
    have hdirect : ∃ error', scan printer (remote server) (named relation params) =
        .error error' ∧ error'.reason = .invalidParams := by
      unfold scan
      rw [fetchRelation_named, scanOpts_named, hopts]
      split
      case h_1 herror =>
        split at herror <;> cases herror
        exact ⟨_, rfl, rfl⟩
      case h_2 => exact ⟨error, rfl, scanOpts_error hopts⟩
    obtain ⟨error', hdirect, hreason⟩ := hdirect
    rw [hdirect]
    simp [Alike, Carried, hopts, hreason, scanOpts_error hopts]
  | ok opts =>
    dsimp only
    rw [h.handleSqlScan]
    cases hsort : opts.sort with
    | cons entry rest =>
      -- no entry is encoded
      rw [wireParams, hsort, show (entry :: rest).mapM encodeEntry = none from rfl]
      cases hdirect : scan printer (remote server) (named relation params) with
      | ok => simp [Alike, Carried, hopts, hsort]
      | error => simp [Alike, Carried, hopts, RpcError.internal]
    | nil =>
      obtain ⟨wire, hwire⟩ : ∃ wire, wireParams relation opts = some wire :=
        ⟨_, wireParams_nil hsort⟩
      obtain ⟨hread, hrelation⟩ := scanOpts_wireParams hopts hsort hwire
      have hsame : scan printer (remote server) wire =
          scan printer (remote server) (named relation params) := by
        unfold scan
        rw [hread, hrelation, scanOpts_named, hopts]
      rw [hwire]
      dsimp only
      rw [hsame]
      cases hdirect : scan printer (remote server) (named relation params) with
      | ok =>
        dsimp only
        rw [sqlScanRows_wire]
        simp [Alike, Carried, hopts, hsort, scan_rekey hdirect]
      | error => simp [Alike, Carried, hopts, upstreamError, RpcError.internal]

end Requests

/-! ## Runs -/

namespace Crm

/-- The pooled session of an upstream that is connected. -/
def session : Session where
  row := { name := "crm", transport := "http", url := some "https://crm.test/mcp" }
  status := .ready
  client := some ⟨none, .http (some "https://crm.test/mcp") [], false⟩

def sessions : Sessions := Processes.spawn .empty session

/-- The upstream has one relation. -/
def remote (_ relation : String) (_ : Opts) : Handled :=
  if relation = "people" then
    .rows [.str "id", .str "name"] [[(.str "name", .str "Ada"), (.str "id", .int 1)]] .null
  else .error (.invalidParams ("Unknown relation: " ++ relation))

/-- The engine's own relations play no part. -/
def default (_ : String) (_ : Opts) : Handled := .raised

def printer : Printer := ⟨fun _ => "", fun _ => ""⟩

/-- The scan at the upstream itself. -/
def direct (relation : String) (params : Fields) : Except RpcError Answer :=
  scan printer (remote "crm") (named relation params)

/-- The scan through the engine. -/
def federated (relation : String) (params : Fields) : Except RpcError Answer :=
  federatedScan printer sessions remote default (named (join "crm" relation) params)

def limited : Fields := [("limit", .int 50000), ("columns", .arr [.str "name"])]

def sorted : Fields := [("sort", .arr [.obj [("column", .str "name")]])]

theorem connected : Connected sessions "crm" 0 session where
  bare := by decide
  foreign := by decide
  pooled := by decide +kernel
  alive := by decide +kernel
  client := rfl

end Crm

open Crm in

theorem federated_scan_alike_people :
    Connected sessions "crm" 0 session ∧
      direct "people" limited =
        .ok ⟨[.str "id", .str "name"], [[.int 1, .str "Ada"]], .null⟩ ∧
      Alike (direct "people" limited) (federated "people" limited) := by
  refine ⟨connected, by decide +kernel, ?_⟩
  refine (federated_scan_alike_iff connected).mpr ?_
  show Carried printer limited (direct "people" limited)
  have hdirect : direct "people" limited =
      .ok ⟨[.str "id", .str "name"], [[.int 1, .str "Ada"]], .null⟩ := by decide +kernel
  rw [hdirect]
  rfl

open Crm in

/-- With a sort the engine fails where the upstream answers, and the session is gone
afterwards. A relation that the upstream does not know is an internal error at the
engine. -/
theorem federated_scan_parts :
    direct "people" sorted = .ok ⟨[.str "id", .str "name"], [[.int 1, .str "Ada"]], .null⟩ ∧
      federated "people" sorted = .error (.internal "Request handler failed") ∧
      (scanOpts printer sorted).toOption.map (fun opts =>
        (handleSqlScan printer sessions remote default "crm.people" opts).2.live) = some [] ∧
      direct "nobody" [] = .error (.invalidParams "Unknown relation: nobody") ∧
      federated "nobody" [] = .error (.internal "sql/scan handler returned ") := by
  decide +kernel

end NoizuMcp.Engine
