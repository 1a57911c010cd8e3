import NoizuMcp.Foundation.Interference
import NoizuMcp.Foundation.Table

/-!
# The caching dispatcher of the virtual file system

`Noizu.MCP.Server.Features.VFS` over `Noizu.MCP.VFS.Cache`: reads go through a cache that
is one term per backend, its generation and its entries. A call is a program whose
operations are the steps that other calls may come between: a read or a write of the
term, a look at the clock, a call of the backend. The term is read and written back in
separate steps, by a fill (`cachePut`), by a lookup that finds an expired entry
(`cacheGet`) and by `bumpGeneration`.

`Mount.direct` is the dispatcher without its cache.
-/

set_option autoImplicit false

namespace NoizuMcp.Vfs

open Foundation (Prog Table)

abbrev Text := List Char

abbrev Path := Text

/-- The types of nodes. -/
inductive NodeType where
  | dir
  | file
  | control
  deriving DecidableEq

/-- `Noizu.MCP.VFS`. -/
structure Node where
  type : NodeType
  size : Nat := 0
  mtime : Int := 0
  version : Int := 1
  writable : Bool := false
  executable : Bool := false
  xattrs : List (String × String) := []
  deriving DecidableEq

/-- An entry of a listing; a backend may leave out the version. -/
structure Entry where
  name : Text
  type : NodeType
  size : Nat := 0
  mtime : Int := 0
  version : Option Int := none
  deriving DecidableEq

/-- The errors of a backend, by their errno. -/
inductive Failure where
  | enoent
  | eacces
  | eexist
  | erofs
  | eisdir
  | enotdir
  | enotempty
  | enosys
  | eperm
  | eio
  | invalidCursor
  deriving DecidableEq

/-- What a new node is created with. -/
inductive Data where
  | dir
  | file (content : Text)
  deriving DecidableEq

/-- A listing: a page and the cursor of the next one. -/
abbrev Listing := List Entry × Option Text

/-- A backend with data `σ` that looks at a context. A failed mutation changes nothing; a
mutation is told the time. -/
structure Backend (σ Ctx : Type) where
  stat : σ → Path → Ctx → Except Failure Node
  list : σ → Path → Option Text → Ctx → Except Failure Listing
  read : σ → Path → Ctx → Except Failure (Text × Int)
  write : σ → Int → Path → Text → Ctx → Except Failure (Node × σ)
  create : σ → Int → Path → Data → Ctx → Except Failure (Node × σ)
  remove : σ → Path → Ctx → Except Failure σ
  move : σ → Path → Path → Ctx → Except Failure (Node × σ)

/-! ## The cache -/

/-- The calls whose answers are cached. -/
inductive Kind where
  | stat
  | list
  | read
  deriving DecidableEq

/-- What is cached for each kind of read. -/
def Kind.Value : Kind → Type
  | .stat => Node
  | .list => Listing
  | .read => Text × Int

/-- The entries with their deadlines, by namespace and key. -/
abbrev Entries (Ns : Type) := (kind : Kind) → Table (Ns × Text) (Int × kind.Value)

/-- The term of a backend. -/
structure Term (Ns : Type) where
  gen : Nat := 0
  entries : Entries Ns := fun _ => ∅

/-- A call of the backend. -/
inductive Ask (Ctx : Type) where
  | stat (path : Path) (ctx : Ctx)
  | list (path : Path) (cursor : Option Text) (ctx : Ctx)
  | read (path : Path) (ctx : Ctx)
  | write (path : Path) (data : Text) (ctx : Ctx)
  | create (path : Path) (data : Data) (ctx : Ctx)
  | remove (path : Path) (ctx : Ctx)
  | move (source target : Path) (ctx : Ctx)

/-- What a backend answers to a call. -/
def Ask.Answer {Ctx : Type} : Ask Ctx → Type
  | .stat _ _ => Except Failure Node
  | .list _ _ _ => Except Failure Listing
  | .read _ _ => Except Failure (Text × Int)
  | .write _ _ _ => Except Failure Node
  | .create _ _ _ => Except Failure Node
  | .remove _ _ => Except Failure Unit
  | .move _ _ _ => Except Failure Node

/-- A step of a call. -/
inductive Op (Ctx Ns : Type) where
  | term
  | setTerm (term : Term Ns)
  | now
  | ask (call : Ask Ctx)

/-- What an operation of a dispatcher gives back. -/
def Op.Res {Ctx Ns : Type} : Op Ctx Ns → Type
  | .term => Term Ns
  | .setTerm _ => Unit
  | .now => Int
  | .ask call => call.Answer

/-- A call of the dispatcher. -/
inductive Request (Ctx : Type) where
  | stat (path : Path) (ctx : Ctx)
  | list (path : Path) (cursor : Option Text) (ctx : Ctx)
  | read (path : Path) (ctx : Ctx) (expected : Option Int)
  | write (path : Path) (data : Text) (ctx : Ctx)
  | create (path : Path) (data : Data) (ctx : Ctx)
  | remove (path : Path) (ctx : Ctx)
  | move (source target : Path) (ctx : Ctx)
  deriving DecidableEq

/-- What a call reports. -/
inductive Report where
  | node (node : Node)
  | listing (listing : Listing)
  | content (content : Text) (version : Int)
  | removed
  deriving DecidableEq

/-- The answer to a request. -/
abbrev Answer := Except Failure Report

/-- A backend behind the dispatcher: the generated document of its root, the settings of the
cache, and `ns/1`, which reads the `vfs_opts` of the host's own context. -/
structure Mount (σ Ctx Ns : Type) where
  backend : Backend σ Ctx
  readme : Ctx → Text
  ns : Ctx → Ns
  enabled : Bool := true
  ttl : Int := 60000

section Programs

variable {Ctx Ns : Type}

/-- The steps of a call that ends with `α`. -/
abbrev Call (Ctx Ns α : Type) := Prog (Op Ctx Ns) Op.Res α

/-- One read of the persistent term. -/
def term : Call Ctx Ns (Term Ns) := Prog.perform Op.term

/-- One write of the persistent term. -/
def setTerm (term : Term Ns) : Call Ctx Ns Unit := Prog.perform (Op.setTerm term)

def now : Call Ctx Ns Int := Prog.perform Op.now

def ask (call : Ask Ctx) : Call Ctx Ns call.Answer := Prog.perform (Op.ask call)

/-- The generation of the mount. -/
def generation : Call Ctx Ns Nat := do
  let t ← term
  return t.gen

/-- A read and a write: two bumps at once may count as one. -/
def bumpGeneration : Call Ctx Ns Nat := do
  let gen ← generation
  setTerm { gen := gen + 1 }
  return gen + 1

/-- The cached entries. -/
def entries : Call Ctx Ns (Entries Ns) := do
  let t ← term
  return t.entries

/-- The version in a cached read. -/
def readVersion : (kind : Kind) → kind.Value → Option Int
  | .read, value => some value.2
  | _, _ => none

variable [DecidableEq Ns]

/-- The entries with one of them gone. -/
def Entries.drop (entries : Entries Ns) (kind : Kind) (ns : Ns) (key : Text) : Entries Ns :=
  Function.update entries kind ((entries kind).erase (ns, key))

/-- The entries with a value that holds until the deadline. -/
def Entries.store (entries : Entries Ns) (kind : Kind) (ns : Ns) (key : Text) (deadline : Int)
    (value : kind.Value) : Entries Ns :=
  Function.update entries kind ((entries kind).insert (ns, key) (deadline, value))

/-- `Cache.get/4`; an entry that has expired is erased. -/
def cacheGet (enabled : Bool) (kind : Kind) (ns : Ns) (key : Text) (expected : Option Int) :
    Call Ctx Ns (Option kind.Value) :=
  if enabled then do
    let time ← now
    let found ← entries
    match (found kind).lookup (ns, key) with
    | none => return none
    | some (deadline, value) =>
      if time < deadline then
        match expected with
        | none => return some value
        | some version => return if readVersion kind value = some version then some value else none
      else do
        let gen ← generation
        let found ← entries
        setTerm { gen := gen, entries := found.drop kind ns key }
        return none
  else return none

/-- `Cache.put/6`. -/
def cachePut (enabled : Bool) (ttl : Int) (kind : Kind) (ns : Ns) (key : Text)
    (value : kind.Value) : Call Ctx Ns Unit :=
  if enabled then do
    let t ← term
    let time ← now
    setTerm { gen := t.gen, entries := t.entries.store kind ns key (time + ttl) value }
  else return ()

end Programs

/-! ## The dispatcher -/

/-- The path of the generated readme. -/
def readmePath : Path := "/README.md".toList

/-- `Readme.node/2`. -/
def readmeNode (content : Text) : Node where
  type := .file
  size := content.length
  version := 1
  xattrs := [("generated", "true")]

/-- `Readme.entry/2`. -/
def readmeEntry (content : Text) : Entry where
  name := "README.md".toList
  type := .file
  size := content.length
  version := some 1

/-- `Readme.prepend/3`. -/
def prependReadme (content : Text) (entries : List Entry) : List Entry :=
  if entries.any (fun e => e.name = "README.md".toList) then entries
  else readmeEntry content :: entries

/-- The first page of the root also lists the readme. -/
def firstRootPage (path : Path) (cursor : Option Text) (content : Text) (entries : List Entry) :
    List Entry :=
  if path = ['/'] ∧ cursor = none then prependReadme content entries else entries

/-- Versions on the wire carry the generation. -/
def Node.stamped (node : Node) (gen : Nat) : Node := { node with version := node.version + gen }

/-- An entry without version stays without. -/
def Entry.stamped (entry : Entry) (gen : Nat) : Entry :=
  { entry with version := entry.version.map (· + gen) }

/-- The key of a page. -/
def listKey (path : Path) (cursor : Option Text) : Text := path ++ '\x00' :: cursor.getD []

section Stamps

variable {Ctx Ns : Type}

/-- The node as the client sees it now. -/
def stamp (node : Node) : Call Ctx Ns Node := do
  let gen ← generation
  return node.stamped gen

/-- An entry without a version is left as it is, and the generation is not read. -/
def stampEntry (entry : Entry) : Call Ctx Ns Entry :=
  match entry.version with
  | none => return entry
  | some _ => do
    let gen ← generation
    return entry.stamped gen

/-- Each entry reads the generation anew. -/
def stampEntries : List Entry → Call Ctx Ns (List Entry)
  | [] => return []
  | entry :: rest => do
    let entry ← stampEntry entry
    let rest ← stampEntries rest
    return entry :: rest

def ok (report : Report) : Call Ctx Ns Answer := return .ok report

def failed (failure : Failure) : Call Ctx Ns Answer := return .error failure

end Stamps

namespace Mount

variable {σ Ctx Ns : Type} [DecidableEq Ns] (m : Mount σ Ctx Ns)

/-- A cached answer for the namespace of the caller. -/
def get (kind : Kind) (ctx : Ctx) (key : Text) (expected : Option Int) :
    Call Ctx Ns (Option kind.Value) :=
  cacheGet m.enabled kind (m.ns ctx) key expected

/-- An answer is kept for the namespace of the caller. -/
def put (kind : Kind) (ctx : Ctx) (key : Text) (value : kind.Value) : Call Ctx Ns Unit :=
  cachePut m.enabled m.ttl kind (m.ns ctx) key value

/-- A node that the backend or the dispatcher itself has: it is cached, and stamped. -/
def fillStat (path : Path) (ctx : Ctx) (node : Node) : Call Ctx Ns Answer := do
  m.put .stat ctx path node
  let node ← stamp node
  ok (.node node)

/-- `stat/3`: from the cache, or from the backend and kept. -/
def stat (path : Path) (ctx : Ctx) : Call Ctx Ns Answer := do
  match ← m.get .stat ctx path none with
  | none =>
    match ← ask (.stat path ctx) with
    | .ok node => m.fillStat path ctx node
    | .error .enoent =>
      if path = readmePath then m.fillStat path ctx (readmeNode (m.readme ctx))
      else failed .enoent
    | .error failure => failed failure
  | some node => do
    let node ← stamp node
    ok (.node node)

/-- `list/4`, with the readme on the first page of the root. -/
def list (path : Path) (cursor : Option Text) (ctx : Ctx) : Call Ctx Ns Answer := do
  match ← m.get .list ctx (listKey path cursor) none with
  | none =>
    match ← ask (.list path cursor ctx) with
    | .ok (entries, next) => do
      let entries ← stampEntries entries
      let entries := firstRootPage path cursor (m.readme ctx) entries
      m.put .list ctx (listKey path cursor) (entries, next)
      ok (.listing (entries, next))
    | .error failure => failed failure
  | some listing => ok (.listing listing)

/-- Content that the backend or the dispatcher itself has: it is cached, and its version is
stamped. -/
def fillRead (path : Path) (ctx : Ctx) (content : Text) (version : Int) : Call Ctx Ns Answer := do
  m.put .read ctx path (content, version)
  let gen ← generation
  ok (.content content (version + gen))

/-- A version that the caller expects, as the backend counts. -/
def unstamp : Option Int → Call Ctx Ns (Option Int)
  | none => return none
  | some version => do
    let gen ← generation
    return some (version - gen)

/-- `read/4`: a version that the client expects is taken back to the backend's first. -/
def read (path : Path) (ctx : Ctx) (expected : Option Int) : Call Ctx Ns Answer := do
  let expected ← unstamp expected
  match ← m.get .read ctx path expected with
  | none =>
    match ← ask (.read path ctx) with
    | .ok (content, version) => m.fillRead path ctx content version
    | .error failure =>
      if path = readmePath then m.fillRead path ctx (m.readme ctx) 1 else failed failure
  | some (content, version) => do
    let gen ← generation
    ok (.content content (version + gen))

/-- `Readme.reserved?/3`: the backend has no writable node there. -/
def reserved (path : Path) (ctx : Ctx) : Call Ctx Ns Bool :=
  if path = readmePath then do
    match ← ask (.stat readmePath ctx) with
    | .ok node => return !node.writable
    | .error _ => return true
  else return false

/-- What is left of a mutation that has a node, once the backend has answered. -/
def mutated : Except Failure Node → Call Ctx Ns Answer
  | .ok node => do
    let _ ← bumpGeneration
    let node ← stamp node
    ok (.node node)
  | .error failure => failed failure

/-- `write/4`: the generated readme is read-only, and a success bumps the generation. -/
def write (path : Path) (data : Text) (ctx : Ctx) : Call Ctx Ns Answer := do
  if ← reserved path ctx then failed .erofs
  else do
    let answer ← ask (.write path data ctx)
    mutated answer

/-- `create/4`, like a write. -/
def create (path : Path) (data : Data) (ctx : Ctx) : Call Ctx Ns Answer := do
  if ← reserved path ctx then failed .erofs
  else do
    let answer ← ask (.create path data ctx)
    mutated answer

/-- What is left of a remove, once the backend has answered. -/
def removed : Except Failure Unit → Call Ctx Ns Answer
  | .ok _ => do
    let _ ← bumpGeneration
    ok .removed
  | .error failure => failed failure

/-- `remove/3`, like a write. -/
def remove (path : Path) (ctx : Ctx) : Call Ctx Ns Answer := do
  if ← reserved path ctx then failed .erofs
  else do
    let answer ← ask (.remove path ctx)
    removed answer

/-- `move/4`: neither path is checked against the readme. -/
def move (source target : Path) (ctx : Ctx) : Call Ctx Ns Answer := do
  let answer ← ask (.move source target ctx)
  mutated answer

/-- The steps of a call. -/
def handler : Request Ctx → Call Ctx Ns Answer
  | .stat path ctx => m.stat path ctx
  | .list path cursor ctx => m.list path cursor ctx
  | .read path ctx expected => m.read path ctx expected
  | .write path data ctx => write path data ctx
  | .create path data ctx => create path data ctx
  | .remove path ctx => remove path ctx
  | .move source target ctx => move source target ctx

end Mount

/-! ## The world of a mount -/

/-- The term, the backend's data, and the clock. -/
structure World (σ Ns : Type) where
  term : Term Ns := {}
  db : σ
  clock : Int := 0

namespace Mount

variable {σ Ctx Ns : Type} (m : Mount σ Ctx Ns)

/-- A mutation of the backend. -/
def settle (w : World σ Ns) : Except Failure (Node × σ) → Except Failure Node × World σ Ns
  | .ok (node, db) => (.ok node, { w with db := db })
  | .error failure => (.error failure, w)

/-- What the backend answers in a world, and the world after. -/
def answer (w : World σ Ns) : (call : Ask Ctx) → call.Answer × World σ Ns
  | .stat path ctx => (m.backend.stat w.db path ctx, w)
  | .list path cursor ctx => (m.backend.list w.db path cursor ctx, w)
  | .read path ctx => (m.backend.read w.db path ctx, w)
  | .write path data ctx => settle w (m.backend.write w.db w.clock path data ctx)
  | .create path data ctx => settle w (m.backend.create w.db w.clock path data ctx)
  | .remove path ctx =>
    match m.backend.remove w.db path ctx with
    | .ok db => (.ok (), { w with db := db })
    | .error failure => (.error failure, w)
  | .move source target ctx => settle w (m.backend.move w.db source target ctx)

/-- One step. -/
def exec : (op : Op Ctx Ns) → World σ Ns → op.Res × World σ Ns
  | .term, w => (w.term, w)
  | .setTerm term, w => ((), { w with term := term })
  | .now, w => (w.clock, w)
  | .ask call, w => m.answer w call

/-! ## Without the cache -/

/-- The node at a path, or the generated document. -/
def rawStat (db : σ) (path : Path) (ctx : Ctx) : Except Failure Node :=
  match m.backend.stat db path ctx with
  | .ok node => .ok node
  | .error .enoent => if path = readmePath then .ok (readmeNode (m.readme ctx)) else .error .enoent
  | .error failure => .error failure

/-- A page with the stamps of a generation. -/
def rawList (db : σ) (gen : Nat) (path : Path) (cursor : Option Text) (ctx : Ctx) :
    Except Failure Listing :=
  (m.backend.list db path cursor ctx).map fun listing =>
    (firstRootPage path cursor (m.readme ctx) (listing.1.map (·.stamped gen)), listing.2)

/-- What the backend has, or the generated readme. -/
def rawRead (db : σ) (path : Path) (ctx : Ctx) : Except Failure (Text × Int) :=
  match m.backend.read db path ctx with
  | .ok value => .ok value
  | .error failure => if path = readmePath then .ok (m.readme ctx, 1) else .error failure

/-- What a read reports for the data as they are. -/
def direct (db : σ) (gen : Nat) : Request Ctx → Option Answer
  | .stat path ctx => some ((m.rawStat db path ctx).map fun node => .node (node.stamped gen))
  | .list path cursor ctx => some ((m.rawList db gen path cursor ctx).map .listing)
  | .read path ctx _ =>
    some ((m.rawRead db path ctx).map fun value => .content value.1 (value.2 + gen))
  | _ => none

end Mount

end NoizuMcp.Vfs
