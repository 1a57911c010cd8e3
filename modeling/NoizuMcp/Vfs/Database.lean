import Mathlib.Data.Char
import Mathlib.Data.List.Lex
import Mathlib.Data.List.Sort
import NoizuMcp.Foundation.SlashPaths
import NoizuMcp.Vfs.Dispatcher

/-!
# The database backend

`Noizu.MCP.VFS.Database`: the nodes are the rows of one table. A call is a program of
single SQL statements, each of which may fail, and of looks at the clock; between two
statements other calls may run. As a backend of the dispatcher a call runs alone, and its
statements do not fail.

Paths are stored as they are sent; the path of a parent is computed from the parts of the
path.
-/

set_option autoImplicit false

namespace NoizuMcp.Vfs.Database

open Foundation (Prog Table)

open Foundation.SlashPaths (parts render join trimTrailing)

/-! ## Rows -/

/-- The types of rows. -/
inductive RowType where
  | file
  | dir
  deriving DecidableEq

def RowType.node : RowType → NodeType
  | .file => .file
  | .dir => .dir

/-- A row without its path. -/
structure Row where
  parent : Option Path
  type : RowType
  data : Option Text := none
  writable : Bool := true
  version : Int := 1
  mtime : Int := 0
  deriving DecidableEq

/-- The table by its primary key. -/
abbrev Rows := Table Path Row

/-- The path of the root directory. -/
def root : Path := ['/']

/-- The row that is inserted by hand. -/
def rootRow : Row where
  parent := none
  type := .dir

/-- The table after the set-up. -/
def initial : Rows := AList.insert root rootRow ∅

/-- `octet_length(data)`, or 0. -/
def Row.size (row : Row) : Nat := (String.ofList (row.data.getD [])).utf8ByteSize

/-- The node that a row stands for. -/
def Row.node (row : Row) : Node where
  type := row.type.node
  size := row.size
  mtime := row.mtime
  version := row.version
  writable := row.writable

/-- `Path.basename/1`. -/
def basename (path : Path) : Text := (parts path).getLastD []

/-- `parent/1` of a path that is not the root. -/
def parent (path : Path) : Path :=
  match parts (trimTrailing path) with
  | [_] => root
  | several => render several.dropLast

/-- A path below the root as it is meant: no slash too many, and no zero byte, which the
database does not take. -/
def Plain (path : Path) : Prop := path ≠ root ∧ render (parts path) = path ∧ '\x00' ∉ path

instance (path : Path) : Decidable (Plain path) := inferInstanceAs (Decidable (_ ∧ _ ∧ _))

/-- The entry of a child. -/
def entry (path : Path) (row : Row) : Entry where
  name := basename path
  type := row.type.node
  size := row.size
  mtime := row.mtime
  version := some row.version

/-! ## Statements -/

/-- The statements of the backend. -/
inductive Sql where
  /-- `SELECT … WHERE path = $1` -/
  | select (path : Path)
  /-- `SELECT … WHERE parent_path = $1 ORDER BY path` -/
  | children (path : Path)
  /-- `UPDATE … SET data = $2, version = version + 1, mtime = $3` `WHERE path = $1 AND
  type = 'file'`, with the time at which it is sent -/
  | update (path : Path) (data : Text)
  /-- `INSERT … ON CONFLICT (path) DO NOTHING`, with the time at which it is sent -/
  | insert (path parent : Path) (data : Data)
  /-- `SELECT 1 … WHERE parent_path = $1 LIMIT 1` -/
  | anyChild (path : Path)
  /-- `DELETE … WHERE path = $1` -/
  | delete (path : Path)
  /-- `now_ms/0` -/
  | now

/-- What comes back, `none` if the statement failed. -/
def Sql.Res : Sql → Type
  | .select _ | .update _ _ | .insert _ _ _ => Option (Option Row)
  | .children _ => Option (List (Path × Row))
  | .anyChild _ => Option Bool
  | .delete _ => Option Nat
  | .now => Int

/-- The columns of a new row. -/
def newRow (parent : Path) (data : Data) (mtime : Int) : Row :=
  match data with
  | .dir => { parent := some parent, type := .dir, mtime := mtime }
  | .file content => { parent := some parent, type := .file, data := some content, mtime := mtime }

/-- A written file: the next version, at the time of the write. -/
def Row.written (row : Row) (data : Text) (mtime : Int) : Row :=
  { row with data := some data, version := row.version + 1, mtime := mtime }

/-- The children of a path, in the order of their paths. -/
def childRows (rows : Rows) (path : Path) : List (Path × Row) :=
  ((rows.entries.map fun e => (e.1, e.2)).filter fun e => e.2.parent = some path).insertionSort
    (fun a b => a.1 ≤ b.1)

/-- `UPDATE … WHERE path = $1 AND type = 'file'`. -/
def update (rows : Rows) (path : Path) (data : Text) (mtime : Int) : Option Row × Rows :=
  match rows.lookup path with
  | some row =>
    if row.type = .file then
      (some (row.written data mtime), rows.insert path (row.written data mtime))
    else (none, rows)
  | none => (none, rows)

/-- `INSERT … ON CONFLICT DO NOTHING`. -/
def insert (rows : Rows) (path parent : Path) (data : Data) (mtime : Int) : Option Row × Rows :=
  match rows.lookup path with
  | some _ => (none, rows)
  | none => (some (newRow parent data mtime), rows.insert path (newRow parent data mtime))

/-- `DELETE … WHERE path = $1`, with the number of rows. -/
def delete (rows : Rows) (path : Path) : Nat × Rows :=
  match rows.lookup path with
  | some _ => (1, rows.erase path)
  | none => (0, rows)

/-- The table and the clock. -/
structure Store where
  rows : Rows
  clock : Int := 0

/-- A statement that does not fail. -/
def exec : (op : Sql) → Store → op.Res × Store
  | .select path, s => (some (s.rows.lookup path), s)
  | .children path, s => (some (childRows s.rows path), s)
  | .update path data, s =>
    (some (update s.rows path data s.clock).1,
      { s with rows := (update s.rows path data s.clock).2 })
  | .insert path parent data, s =>
    (some (insert s.rows path parent data s.clock).1,
      { s with rows := (insert s.rows path parent data s.clock).2 })
  | .anyChild path, s => (some (!(childRows s.rows path).isEmpty), s)
  | .delete path, s => (some (delete s.rows path).1, { s with rows := (delete s.rows path).2 })
  | .now, s => (s.clock, s)

/-- A statement that fails; the clock does not. -/
def fail : (op : Sql) → Store → op.Res × Store
  | .select _, s | .update _ _, s | .insert _ _ _, s => (none, s)
  | .children _, s => (none, s)
  | .anyChild _, s => (none, s)
  | .delete _, s => (none, s)
  | .now, s => (s.clock, s)

/-! ## Calls -/

/-- A function of the backend, as a script of its statements. -/
abbrev Script (α : Type) := Prog Sql Sql.Res α

def sql (op : Sql) : Script op.Res := Prog.perform op

/-- `stat/3`. -/
def stat (path : Path) : Script (Except Failure Node) := do
  match ← sql (.select path) with
  | some (some row) => return .ok row.node
  | some none => return .error .enoent
  | none => return .error .eio

/-- What follows the look at the directory. -/
def listing (path : Path) : Option (Option Row) → Script (Except Failure (List Entry))
  | some (some row) =>
    if row.type = .dir then do
      match ← sql (.children path) with
      | some children => return .ok (children.map fun child => entry child.1 child.2)
      | none => return .error .eio
    else return .error .enotdir
  | some none => return .error .enoent
  | none => return .error .eio

/-- `list/4`, before its entries are cut into pages. -/
def list (path : Path) : Script (Except Failure (List Entry)) := do
  let found ← sql (.select path)
  listing path found

/-- The second statement of a write that found no file. -/
def writeFailure (path : Path) : Script (Except Failure Node) := do
  match ← sql (.select path) with
  | some (some row) => return .error (if row.type = .dir then .eisdir else .enoent)
  | _ => return .error .enoent

/-- `write/4`: one update; a row that it misses is looked at to name the error. -/
def write (readOnly : Bool) (path : Path) (data : Text) : Script (Except Failure Node) :=
  if readOnly then return .error .erofs
  else do
    match ← sql (.update path data) with
    | some (some row) => do
      let mtime ← sql .now
      return .ok { row.node with type := .file, mtime := mtime }
    | some none => writeFailure path
    | none => return .error .eio

/-- The second statement of a create, once the parent has been seen. -/
def insertion (path : Path) (data : Data) : Script (Except Failure Node) := do
  match ← sql (.insert path (parent path) data) with
  | some (some row) => do
    let mtime ← sql .now
    return .ok { row.node with mtime := mtime }
  | some none => return .error .eexist
  | none => return .error .eio

/-- What follows the look at the parent. -/
def underParent (path : Path) (data : Data) : Option (Option Row) → Script (Except Failure Node)
  | some (some row) => if row.type = .dir then insertion path data else return .error .enoent
  | some none => return .error .enoent
  | none => return .error .eio

/-- `create/4`: the parent has to be a directory, and the path free. -/
def create (readOnly : Bool) (path : Path) (data : Data) : Script (Except Failure Node) :=
  if readOnly then return .error .erofs
  else if path = root then return .error .eacces
  else do
    let found ← sql (.select (parent path))
    underParent path data found

/-- The second statement of a remove, once no child has been seen. -/
def deletion (path : Path) : Script (Except Failure Unit) := do
  match ← sql (.delete path) with
  | some 1 => return .ok ()
  | some _ => return .error .enoent
  | none => return .error .eio

/-- What follows the look for children. -/
def unlessChildren (path : Path) : Option Bool → Script (Except Failure Unit)
  | some true => return .error .enotempty
  | some false => deletion path
  | none => return .error .eio

/-- `remove/3`: a directory has to be empty; the check and the delete are two statements. -/
def remove (readOnly : Bool) (path : Path) : Script (Except Failure Unit) :=
  if readOnly then return .error .erofs
  else if path = root then return .error .eacces
  else do
    let found ← sql (.anyChild path)
    unlessChildren path found

/-! ## As a backend -/

/-- The result of a call that runs alone. -/
def alone {α : Type} (script : Script (Except Failure α)) (rows : Rows) (now : Int) :
    Except Failure α :=
  (script.runAlone exec ⟨rows, now⟩).1

/-! ## Plain paths -/

section Plain

open Foundation.SlashPaths

variable {path : Path}

theorem Plain.parts_eq (h : Plain path) : parts path = (parts path).dropLast ++ [basename path] := by
  have hne : parts path ≠ [] := by
    intro hnil
    have := h.2.1
    rw [hnil] at this
    exact h.1 this.symm
  rw [basename, List.getLastD_eq_getLast?, List.getLast?_eq_getLast_of_ne_nil hne, Option.getD_some,
    List.dropLast_append_getLast hne]

theorem Plain.component_dropLast (_ : Plain path) : ∀ c ∈ (parts path).dropLast, Component c :=
  fun _ hc => component_of_mem_parts (List.dropLast_subset _ hc)

theorem Plain.component_basename (h : Plain path) : Component (basename path) := by
  have hmem : basename path ∈ parts path := by
    rw [h.parts_eq]
    exact List.mem_append_right _ (List.mem_singleton.mpr rfl)
  exact component_of_mem_parts hmem

theorem Plain.join_eq (h : Plain path) :
    join (render (parts path).dropLast) (basename path) = path := by
  rw [join_render h.component_dropLast, ← h.parts_eq, h.2.1]

/-- The parent of a plain path is the path of its other components. -/
theorem Plain.parent_eq (h : Plain path) : parent path = render (parts path).dropLast := by
  have htrim : trimTrailing path = path := by
    have hjoin := h.join_eq
    rw [join] at hjoin
    split at hjoin
    · rw [← hjoin]
      exact trimTrailing_append h.component_basename ['/']
    · rw [← hjoin, ← List.singleton_append, ← List.append_assoc]
      exact trimTrailing_append h.component_basename _
  rw [parent, htrim]
  split
  · rename_i heq
    rw [heq]
    rfl
  · rfl

theorem Plain.join_parent (h : Plain path) : join (parent path) (basename path) = path := by
  rw [h.parent_eq, h.join_eq]

end Plain

/-! ## What a call does -/

section Specs

variable {rows : Rows} {path : Path} {now : Int}

theorem alone_stat : alone (stat path) rows now =
    match rows.lookup path with
    | some row => .ok row.node
    | none => .error .enoent := by
  change (Prog.runAlone exec (stat path) ⟨rows, now⟩).1 = _
  cases h : rows.lookup path with
  | none | some => simp [stat, sql, Prog.perform, exec, h]

/-- A directory is listed with its children, and nothing else is. -/
theorem alone_list : alone (list path) rows now =
    match rows.lookup path with
    | some row =>
      if row.type = .dir then .ok ((childRows rows path).map fun child => entry child.1 child.2)
      else .error .enotdir
    | none => .error .enoent := by
  change (Prog.runAlone exec (list path) ⟨rows, now⟩).1 = _
  cases h : rows.lookup path with
  | none => simp [list, listing, sql, Prog.perform, exec, h]
  | some row =>
    by_cases hdir : row.type = .dir
    · simp [list, listing, sql, Prog.perform, exec, h, hdir]
    · simp [list, listing, sql, Prog.perform, exec, h, hdir]

/-- The children of a path. -/
theorem mem_childRows {child : Path} {row : Row} :
    (child, row) ∈ childRows rows path ↔
      rows.lookup child = some row ∧ row.parent = some path := by
  rw [childRows, List.mem_insertionSort, List.mem_filter, List.mem_map, decide_eq_true_eq]
  refine and_congr_left fun _ => ⟨?_, fun h => ?_⟩
  · rintro ⟨e, he, heq⟩
    cases heq
    exact AList.mem_lookup_iff.mpr he
  · exact ⟨⟨child, row⟩, AList.mem_lookup_iff.mp h, rfl⟩

end Specs

end NoizuMcp.Vfs.Database
