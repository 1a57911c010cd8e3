import NoizuMcp.Foundation.Service
import NoizuMcp.Vfs.Database

/-!
# The table as a tree

Creates, writes and removes run statement by statement over one table. A create looks at
the row of the parent and inserts later; a remove looks for children and deletes later. If
no row is inserted under a path while its deletion is waiting to be sent, nor deleted while
an insertion under it is waiting, and the paths of new nodes are plain, then in every state
the rows are a tree (`Tree`): each has its parent among the directories, and the name under
which it is listed leads back to it. A walk from the root then comes to every row
(`walk_reaches`).
-/

set_option autoImplicit false

namespace NoizuMcp.Vfs.Database

open Foundation (Prog Table Pool Service Action)

open Foundation.SlashPaths (join parts parts_render)

/-! ## Trees of rows -/

/-- There is a directory at the path. -/
def IsDir (rows : Rows) (path : Path) : Prop := ∃ row, rows.lookup path = some row ∧ row.type = .dir

/-- No row names the path as its parent. -/
def Childless (rows : Rows) (path : Path) : Prop :=
  ∀ child row, rows.lookup child = some row → row.parent ≠ some path

/-- The root is a directory without a parent; every other row is at a plain path and its
parent is a directory. -/
structure Tree (rows : Rows) : Prop where
  root : ∃ row, rows.lookup root = some row ∧ row.type = .dir ∧ row.parent = none
  placed : ∀ path row, rows.lookup path = some row → path ≠ Database.root →
    Plain path ∧ row.parent = some (parent path) ∧ IsDir rows (parent path)

theorem tree_initial : Tree initial := by
  refine ⟨⟨rootRow, AList.lookup_insert _, rfl, rfl⟩, fun path row h hne => ?_⟩
  rw [initial, Table.lookup_insert_ite, if_neg hne] at h
  simp at h

/-- The tables agree but for the contents of files. -/
def SameShape (rows rows' : Rows) : Prop :=
  ∀ path, (rows'.lookup path).map (fun row => (row.type, row.parent)) =
    (rows.lookup path).map (fun row => (row.type, row.parent))

section Shape

variable {rows rows' : Rows} {path : Path}

theorem SameShape.refl : SameShape rows rows := fun _ => rfl

theorem SameShape.symm (h : SameShape rows rows') : SameShape rows' rows := fun path => (h path).symm

variable {row' : Row} {mtime : Int} {d up path' : Path} {data : Data}

section

variable (h : SameShape rows rows')

include h

theorem SameShape.lookup (hrow : rows'.lookup path = some row') :
    ∃ row, rows.lookup path = some row ∧ row.type = row'.type ∧ row.parent = row'.parent := by
  have hmap := h path
  rw [hrow] at hmap
  obtain ⟨row, hlookup, heq⟩ := Option.map_eq_some_iff.mp hmap.symm
  exact ⟨row, hlookup, congrArg Prod.fst heq, congrArg Prod.snd heq⟩

theorem SameShape.isDir (hdir : IsDir rows path) : IsDir rows' path := by
  obtain ⟨row, hrow, htype⟩ := hdir
  obtain ⟨row', hrow', htype', -⟩ := h.symm.lookup hrow
  exact ⟨row', hrow', htype'.trans htype⟩

theorem SameShape.childless (hnone : Childless rows path) : Childless rows' path := by
  intro child row' hrow'
  obtain ⟨row, hrow, -, hparent⟩ := h.lookup hrow'
  rw [← hparent]
  exact hnone child row hrow

theorem SameShape.tree (htree : Tree rows) : Tree rows' := by
  obtain ⟨row, hrow, htype, hparent⟩ := htree.root
  obtain ⟨row', hrow', htype', hparent'⟩ := h.symm.lookup hrow
  refine ⟨⟨row', hrow', htype'.trans htype, hparent'.trans hparent⟩, fun path row' hrow' hne => ?_⟩
  obtain ⟨row, hrow, -, hparent⟩ := h.lookup hrow'
  obtain ⟨hplain, hup, hdir⟩ := htree.placed path row hrow hne
  exact ⟨hplain, hparent ▸ hup, h.isDir hdir⟩

end

theorem sameShape_update {data : Text} : SameShape rows (update rows path data mtime).2 := by
  intro path'
  unfold update
  split
  · rename_i row hrow
    split
    · rw [Table.lookup_insert_ite]
      split
      · rename_i heq
        rw [heq, hrow]
        rfl
      · rfl
    · rfl
  · rfl

/-! What an insertion and a deletion leave in place. -/

theorem lookup_insert_cases (h : (insert rows path up data mtime).2.lookup path' = some row') :
    rows.lookup path' = some row' ∨ (path' = path ∧ row' = newRow up data mtime) := by
  unfold Database.insert at h
  split at h
  · exact .inl h
  · rw [Table.lookup_insert_ite] at h
    split at h
    · exact .inr ⟨‹_›, (Option.some.inj h).symm⟩
    · exact .inl h

theorem lookup_of_delete (h : (delete rows path).2.lookup path' = some row') :
    rows.lookup path' = some row' := by
  unfold Database.delete at h
  split at h
  · rw [Table.lookup_erase_ite] at h
    split at h
    · cases h
    · exact h
  · exact h

theorem newRow_parent (up : Path) (data : Data) (mtime : Int) :
    (newRow up data mtime).parent = some up := by
  cases data <;> rfl

theorem IsDir.insert (h : IsDir rows d) : IsDir (insert rows path up data mtime).2 d := by
  unfold Database.insert
  split
  · exact h
  · rename_i hnew
    obtain ⟨row, hrow, htype⟩ := h
    have hne : d ≠ path := by
      rintro rfl
      rw [hnew] at hrow
      cases hrow
    exact ⟨row, (AList.lookup_insert_ne hne).trans hrow, htype⟩

theorem IsDir.delete (h : IsDir rows d) (hne : d ≠ path) : IsDir (delete rows path).2 d := by
  unfold Database.delete
  split
  · obtain ⟨row, hrow, htype⟩ := h
    exact ⟨row, (AList.lookup_erase_ne hne).trans hrow, htype⟩
  · exact h

theorem Childless.insert (h : Childless rows d) (hne : up ≠ d) :
    Childless (insert rows path up data mtime).2 d := by
  intro child row hrow
  rcases lookup_insert_cases hrow with hold | ⟨-, rfl⟩
  · exact h child row hold
  · rw [newRow_parent]
    exact fun heq => hne (Option.some.inj heq)

theorem Childless.delete (h : Childless rows d) : Childless (delete rows path).2 d :=
  fun child row hrow => h child row (lookup_of_delete hrow)

/-- A plain path whose parent is a directory: a row can be inserted. -/
theorem Tree.insert (h : Tree rows) (hplain : Plain path) (hdir : IsDir rows (parent path)) :
    Tree (insert rows path (parent path) data mtime).2 := by
  refine ⟨?_, fun path' row' hrow' hne => ?_⟩
  · obtain ⟨row, hrow, hrest⟩ := h.root
    refine ⟨row, ?_, hrest⟩
    unfold Database.insert
    split
    · exact hrow
    · exact (AList.lookup_insert_ne (Ne.symm hplain.1)).trans hrow
  · rcases lookup_insert_cases hrow' with hold | ⟨rfl, rfl⟩
    · obtain ⟨hplain', hup, hdir'⟩ := h.placed path' row' hold hne
      exact ⟨hplain', hup, hdir'.insert⟩
    · exact ⟨hplain, newRow_parent _ _ _, hdir.insert⟩

/-- A path below the root that has no children: its row can be deleted. -/
theorem Tree.delete (h : Tree rows) (hroot : path ≠ Database.root) (hnone : Childless rows path) :
    Tree (delete rows path).2 := by
  refine ⟨?_, fun path' row' hrow' hne => ?_⟩
  · obtain ⟨row, hrow, hrest⟩ := h.root
    refine ⟨row, ?_, hrest⟩
    unfold Database.delete
    split
    · exact (AList.lookup_erase_ne (Ne.symm hroot)).trans hrow
    · exact hrow
  · have hold := lookup_of_delete hrow'
    obtain ⟨hplain, hup, hdir⟩ := h.placed path' row' hold hne
    exact ⟨hplain, hup, hdir.delete fun heq => hnone path' row' hold (heq ▸ hup)⟩

theorem childless_of_isEmpty (h : (childRows rows path).isEmpty = true) : Childless rows path := by
  intro child row hrow hparent
  have hmem := mem_childRows.mpr ⟨hrow, hparent⟩
  rw [List.isEmpty_iff.mp h] at hmem
  cases hmem

end Shape

/-! ## Calls, statement by statement -/

/-- A call that may change the table. -/
inductive Mutation where
  | create (path : Path) (data : Data)
  | write (path : Path) (data : Text)
  | remove (path : Path)
  deriving DecidableEq

/-- What a call returns. -/
inductive Outcome where
  | node (result : Except Failure Node)
  | gone (result : Except Failure Unit)
  deriving DecidableEq

/-- The backend's function for a request. -/
def handler (readOnly : Bool) : Mutation → Script Outcome
  | .create path data => (create readOnly path data).bind fun r => .ret (.node r)
  | .write path data => (write readOnly path data).bind fun r => .ret (.node r)
  | .remove path => (remove readOnly path).bind fun r => .ret (.gone r)

/-- Any number of calls at once; the scheduler says which statements fail. -/
def service (readOnly : Bool) : Service Mutation Outcome Store Bool Nat Sql Sql.Res where
  handler := handler readOnly
  admits _ _ := true
  exec p _ op fails := some (if fails then fail op p.world else exec op p.world)
  moves p d := some { p.world with clock := p.world.clock + d }

/-- Mutations that are under way at the same time. -/
abbrev Calls := Pool Mutation Outcome Store Sql Sql.Res

abbrev Step := Action Mutation Bool Nat

/-- The call is about to delete the row of the path. -/
def deletes (path : Path) (t : Mutation × Script Outcome) : Bool :=
  match t.2 with
  | .call (.delete path') _ => path' = path
  | _ => false

/-- The call is about to insert a row under the path. -/
def insertsUnder (path : Path) (t : Mutation × Script Outcome) : Bool :=
  match t.2 with
  | .call (.insert _ parent _) _ => parent = path
  | _ => false

/-- New nodes are at plain paths. No row is inserted under a path while its deletion is
waiting, and none is deleted while an insertion under it is waiting. -/
def Apart (p : Calls) : Step → Bool
  | .arrive (.create path _) => decide (Plain path)
  | .arrive _ => true
  | .run i _ =>
    match p.threads[i]? with
    | some (_, .call (.insert _ parent _) _) => p.threads.all fun t => !deletes parent t
    | some (_, .call (.delete path) _) => p.threads.all fun t => !insertsUnder path t
    | _ => true
  | .move _ => true

/-- A statement that neither inserts nor deletes. -/
def Sql.gentle : Sql → Bool
  | .insert _ _ _ => false
  | .delete _ => false
  | _ => true

/-- A program without insertions and deletions. -/
def Gentle {α : Type} : Script α → Prop
  | .ret _ => True
  | .call op k => op.gentle = true ∧ ∀ r, Gentle (k r)

theorem gentle_bind {α β : Type} {f : α → Script β} (hf : ∀ a, Gentle (f a)) :
    ∀ {p : Script α}, Gentle p → Gentle (p.bind f)
  | .ret a, _ => hf a
  | .call _ _, h => ⟨h.1, fun r => gentle_bind hf (h.2 r)⟩

theorem gentle_writeFailure (path : Path) : Gentle (writeFailure path) := by
  refine ⟨rfl, fun r => ?_⟩
  rcases r with _ | _ | row
  · trivial
  · trivial
  · trivial

theorem gentle_write (readOnly : Bool) (path : Path) (data : Text) :
    Gentle (write readOnly path data) := by
  unfold write
  split
  · trivial
  · refine ⟨rfl, fun r => ?_⟩
    rcases r with _ | _ | row
    · trivial
    · exact gentle_writeFailure path
    · exact ⟨rfl, fun _ => trivial⟩

/-- Where a call can be: not started; about to insert, with the parent in place; about to
delete, with no children in place; or past all that. -/
inductive Stage (readOnly : Bool) (rows : Rows) : Mutation → Script Outcome → Prop where
  | creating {path : Path} {data : Data} (hplain : Plain path) :
      Stage readOnly rows (.create path data) (handler readOnly (.create path data))
  | removing {path : Path} : Stage readOnly rows (.remove path) (handler readOnly (.remove path))
  | inserting {path : Path} {data : Data} (hplain : Plain path)
      (hdir : IsDir rows (parent path)) :
      Stage readOnly rows (.create path data)
        ((insertion path data).bind fun r => .ret (.node r))
  | deleting {path : Path} (hroot : path ≠ root) (hnone : Childless rows path) :
      Stage readOnly rows (.remove path) ((deletion path).bind fun r => .ret (.gone r))
  | past {req : Mutation} {prog : Script Outcome} (hgentle : Gentle prog) :
      Stage readOnly rows req prog

/-- What a statement of a call can do to the table. -/
inductive Effect (s : Store) : Sql → Rows → Prop where
  | shape {op : Sql} {rows : Rows} (h : SameShape s.rows rows) : Effect s op rows
  | insert {path : Path} {data : Data} (hplain : Plain path) (hdir : IsDir s.rows (parent path)) :
      Effect s (.insert path (parent path) data)
        (Database.insert s.rows path (parent path) data s.clock).2
  | delete {path : Path} (hroot : path ≠ root) (hnone : Childless s.rows path) :
      Effect s (.delete path) (Database.delete s.rows path).2

section Steps

variable {readOnly : Bool} {s : Store} {op : Sql} {rows : Rows} {req : Mutation}

theorem Effect.tree (h : Effect s op rows) (htree : Tree s.rows) : Tree rows := by
  cases h with
  | shape hsame => exact hsame.tree htree
  | insert hplain hdir => exact htree.insert hplain hdir
  | delete hroot hnone => exact htree.delete hroot hnone

/-- What a statement that does not fail does. -/
theorem exec_gentle (h : op.gentle = true) : SameShape s.rows (exec op s).2.rows := by
  cases op with
  | insert | delete => cases h
  | update => exact sameShape_update
  | select | children | anyChild | now => exact SameShape.refl

theorem fail_rows : (fail op s).2 = s := by
  cases op <;> rfl

variable {out : op.Res × Store}

/-- Either way a statement without insertion and deletion keeps the shape. -/
theorem outcome_gentle (hout : out = fail op s ∨ out = exec op s) (h : op.gentle = true) :
    SameShape s.rows out.2.rows := by
  rcases hout with rfl | rfl
  · rw [fail_rows]
    exact SameShape.refl
  · exact exec_gentle h

/-- A step of a call: what it does, and where the call is then. -/
theorem Stage.step {k : op.Res → Script Outcome} (h : Stage readOnly s.rows req (.call op k))
    (hout : out = fail op s ∨ out = exec op s) :
    Effect s op out.2.rows ∧ Stage readOnly out.2.rows req (k out.1) := by
  generalize hprog : Prog.call op k = prog at h
  cases h with
  | past hgentle =>
    subst hprog
    exact ⟨.shape (outcome_gentle hout hgentle.1), .past (hgentle.2 _)⟩
  | @creating path data hplain =>
    simp only [handler, create] at hprog
    split at hprog
    · cases hprog
    · split at hprog
      · cases hprog
      · cases hprog
        refine ⟨.shape (outcome_gentle hout rfl), ?_⟩
        rcases hout with rfl | rfl
        · exact .past trivial
        · change Stage readOnly s.rows _
            ((underParent path data (some (s.rows.lookup (parent path)))).bind _)
          cases hrow : s.rows.lookup (parent path) with
          | none => exact .past trivial
          | some row =>
            rw [underParent]
            split
            · exact .inserting hplain ⟨row, hrow, ‹_›⟩
            · exact .past trivial
  | @removing path =>
    simp only [handler, remove] at hprog
    split at hprog
    · cases hprog
    · split at hprog
      · cases hprog
      · rename_i hroot
        cases hprog
        refine ⟨.shape (outcome_gentle hout rfl), ?_⟩
        rcases hout with rfl | rfl
        · exact .past trivial
        · change Stage readOnly s.rows _
            ((unlessChildren path (some (!(childRows s.rows path).isEmpty))).bind _)
          cases hempty : (childRows s.rows path).isEmpty with
          | true => exact .deleting hroot (childless_of_isEmpty hempty)
          | false => exact .past trivial
  | @inserting _ _ hplain hdir =>
    cases hprog
    refine ⟨?_, .past ?_⟩
    · rcases hout with rfl | rfl
      · exact .shape SameShape.refl
      · exact .insert hplain hdir
    · rcases out.1 with _ | _ | row
      · trivial
      · trivial
      · exact ⟨rfl, fun _ => trivial⟩
  | @deleting _ hroot hnone =>
    cases hprog
    refine ⟨?_, .past ?_⟩
    · rcases hout with rfl | rfl
      · exact .shape SameShape.refl
      · exact .delete hroot hnone
    · rcases out.1 with _ | _ | _ | n <;> trivial

/-- A statement of another call leaves a call where it is, unless an insertion meets a
deletion. -/
theorem Stage.other {prog : Script Outcome} (h : Stage readOnly s.rows req prog)
    (heffect : Effect s op rows)
    (hinsert : ∀ path d data, op = .insert path d data → deletes d (req, prog) = false)
    (hdelete : ∀ path, op = .delete path → insertsUnder path (req, prog) = false) :
    Stage readOnly rows req prog := by
  cases h with
  | creating hplain => exact .creating hplain
  | removing => exact .removing
  | past hgentle => exact .past hgentle
  | @inserting _ _ hplain hdir =>
    refine .inserting hplain ?_
    cases heffect with
    | shape hsame => exact hsame.isDir hdir
    | insert => exact hdir.insert
    | @delete path' =>
      refine hdir.delete fun heq => ?_
      have hmeet := hdelete path' rfl
      simp [insertsUnder, insertion, sql, Prog.perform, heq] at hmeet
  | @deleting _ hroot hnone =>
    refine .deleting hroot ?_
    cases heffect with
    | shape hsame => exact hsame.childless hnone
    | @insert path' data' =>
      refine hnone.insert fun heq => ?_
      have hmeet := hinsert path' (parent path') data' rfl
      simp [deletes, deletion, sql, Prog.perform, heq] at hmeet
    | delete => exact hnone.delete

end Steps

/-! ## Every interleaving -/

/-- The rows are a tree, and every call is where it can be. -/
structure Growing (readOnly : Bool) (p : Calls) : Prop where
  tree : Tree p.world.rows
  stages : ∀ t ∈ p.threads, Stage readOnly p.world.rows t.1 t.2

variable {readOnly : Bool}

/-- Where a call starts. -/
theorem stage_start {rows : Rows} {p : Calls} {req : Mutation} (h : Apart p (.arrive req) = true) :
    Stage readOnly rows req (handler readOnly req) := by
  cases req with
  | create => exact .creating (of_decide_eq_true h)
  | write path data =>
    have hlast : ∀ r, Gentle (Prog.ret (Outcome.node r) : Script Outcome) := fun _ => trivial
    exact .past (gentle_bind hlast (gentle_write readOnly path data))
  | remove => exact .removing

theorem Growing.step {p q : Calls} {a : Step} (h : Growing readOnly p) (hC : Apart p a = true)
    (hstep : (service readOnly).step p a = some q) : Growing readOnly q := by
  rcases Service.step_cases hstep with ⟨req, rfl, -, rfl⟩ |
    ⟨i, fails, req, op, k, r, s, rfl, hthread, hexec, rfl⟩ | ⟨d, s, rfl, hmove, rfl⟩
  · refine ⟨h.tree, fun t ht => ?_⟩
    rcases List.mem_append.mp ht with hold | hnew
    · exact h.stages t hold
    · rw [List.mem_singleton.mp hnew]
      exact stage_start hC
  · have hout : ((r, s) : op.Res × Store) = fail op p.world ∨ (r, s) = exec op p.world := by
      have heq := Option.some.inj hexec
      cases fails with
      | true => exact .inl heq.symm
      | false => exact .inr heq.symm
    obtain ⟨heffect, hnext⟩ :=
      Stage.step (h.stages (req, .call op k) (List.mem_of_getElem? hthread)) hout
    refine ⟨heffect.tree h.tree, fun t ht => ?_⟩
    rcases List.mem_or_eq_of_mem_set ht with hold | rfl
    · refine (h.stages t hold).other heffect (fun path d data hop => ?_) (fun path hop => ?_)
      all_goals
        subst hop
        simp only [Apart, hthread] at hC
        simpa using List.all_eq_true.mp hC t hold
    · exact hnext
  · cases hmove
    exact ⟨h.tree, h.stages⟩

section Listings

variable {rows : Rows} {d child : Path} {row : Row}

/-- A row leads back from the name under which it is listed. -/
theorem Tree.join_child (h : Tree rows) (hchild : (child, row) ∈ childRows rows d) :
    join d (basename child) = child := by
  obtain ⟨hrow, hparent⟩ := mem_childRows.mp hchild
  have hne : child ≠ Database.root := by
    rintro rfl
    obtain ⟨rootRow, hroot, -, hnone⟩ := h.root
    rw [hrow] at hroot
    cases hroot
    rw [hparent] at hnone
    cases hnone
  obtain ⟨hplain, hup, -⟩ := h.placed child row hrow hne
  obtain rfl : d = parent child := Option.some.inj (hparent.symm.trans hup)
  exact hplain.join_parent

theorem nodup_childRows : (childRows rows d).Nodup := by
  rw [childRows, (List.perm_insertionSort _ _).nodup_iff]
  refine List.Nodup.filter _ (List.Nodup.map ?_ rows.nodupKeys.nodup)
  rintro ⟨child, row⟩ ⟨child', row'⟩ heq
  cases heq
  rfl

theorem Tree.nodup_names (h : Tree rows) :
    ((childRows rows d).map fun e => (entry e.1 e.2).name).Nodup := by
  refine List.Nodup.map_on ?_ nodup_childRows
  rintro ⟨child, row⟩ hchild ⟨child', row'⟩ hchild' hname
  have hsame : child = child' := by
    rw [← h.join_child hchild, ← h.join_child hchild']
    exact congrArg (join d) hname
  subst hsame
  have hrow := (mem_childRows.mp hchild).1
  rw [(mem_childRows.mp hchild').1] at hrow
  cases hrow
  rfl

/-- The name of the child is in the listing of the directory. -/
def Lists (rows : Rows) (d child : Path) : Prop :=
  ∃ entries, alone (list d) rows 0 = .ok entries ∧ ∃ e ∈ entries, join d e.name = child

/-- The paths that are found from the root by listing directories. -/
abbrev Found (rows : Rows) : Path → Prop := Relation.ReflTransGen (Lists rows) root

theorem Tree.lists (h : Tree rows) (hdir : IsDir rows d)
    (hchild : (child, row) ∈ childRows rows d) : Lists rows d child := by
  obtain ⟨dir, hlookup, htype⟩ := hdir
  have hlist : alone (list d) rows 0 =
      .ok ((childRows rows d).map fun child => entry child.1 child.2) := by
    rw [alone_list, hlookup]
    exact if_pos htype
  exact ⟨_, hlist, entry child row, List.mem_map.mpr ⟨(child, row), hchild, rfl⟩,
    h.join_child hchild⟩

theorem Tree.found (h : Tree rows) {path : Path} {row : Row} (hrow : rows.lookup path = some row) :
    Found rows path := by
  by_cases hne : path = Database.root
  · exact hne ▸ .refl
  · obtain ⟨hplain, hup, dir, hdir, htype⟩ := h.placed path row hrow hne
    exact (Tree.found h hdir).tail (h.lists ⟨dir, hdir, htype⟩ (mem_childRows.mpr ⟨hrow, hup⟩))
termination_by (parts path).length
decreasing_by
  rw [hplain.parent_eq, parts_render hplain.component_dropLast]
  nth_rewrite 2 [hplain.parts_eq]
  simp

end Listings

/-- Unless an insertion meets a deletion, and for plain paths, the table stays a tree: each
row's parent is a directory, the names in a listing differ, and a name in the listing of a
directory is that of the row found by joining the two. -/
theorem tree_when_apart (readOnly : Bool) (clock : Int) {p : Calls}
    (hp : (service readOnly).ReachUnder (fun p a => Apart p a = true)
      (Pool.idle ⟨initial, clock⟩) p) :
    (∀ path row, p.world.rows.lookup path = some row → path ≠ root →
      ∃ d, row.parent = some d ∧ IsDir p.world.rows d) ∧
    (∀ d, ((childRows p.world.rows d).map fun e => (entry e.1 e.2).name).Nodup) ∧
    ∀ d child row, (child, row) ∈ childRows p.world.rows d →
      join d (entry child row).name = child ∧
        alone (stat (join d (entry child row).name)) p.world.rows 0 = .ok row.node := by
  have hstart : Growing readOnly (Pool.idle ⟨initial, clock⟩) :=
    ⟨tree_initial, fun _ ht => by cases ht⟩
  have htree := (hp.invariant (Growing readOnly) (fun _ _ _ h hC hs => h.step hC hs) hstart).tree
  refine ⟨fun path row hrow hne => ?_, fun d => htree.nodup_names, fun d child row hchild => ?_⟩
  · obtain ⟨-, hup, hdir⟩ := htree.placed path row hrow hne
    exact ⟨parent path, hup, hdir⟩
  · have hjoin : join d (entry child row).name = child := htree.join_child hchild
    refine ⟨hjoin, ?_⟩
    rw [hjoin, alone_stat, (mem_childRows.mp hchild).1]

/-- A call that arrives as the `i`th and runs `n` statements. -/
def started (i n : Nat) (req : Mutation) : List Step :=
  .arrive req :: List.replicate n (.run i false)

def dirPath : Path := "/d".toList

def filePath : Path := "/d/f".toList

/-- A directory and a file in it. -/
theorem tree_with_file :
    ∃ p : Calls, ∃ row, p.world.rows.lookup filePath = some row ∧
      ∃ d, row.parent = some d ∧ IsDir p.world.rows d := by
  have hrun : ((service false).runsIf Apart (Pool.idle ⟨initial, 0⟩)
      (started 0 3 (.create dirPath .dir) ++ started 1 3 (.create filePath (.file [])))).map
        (fun p => p.world.rows.lookup filePath) =
      some (some { parent := some dirPath, type := .file, data := some [] }) := by
    decide +kernel
  obtain ⟨p, hp, hrow⟩ := Option.map_eq_some_iff.mp hrun
  refine ⟨p, _, hrow, ?_⟩
  exact (tree_when_apart false 0 (Service.reachUnder_of_runsIf hp)).1 filePath _ hrow (by decide)

/-- A walk that lists directories from the root comes to every row. -/
theorem walk_reaches (readOnly : Bool) (clock : Int) {p : Calls}
    (hp : (service readOnly).ReachUnder (fun p a => Apart p a = true)
      (Pool.idle ⟨initial, clock⟩) p) {path : Path} {row : Row}
    (hrow : p.world.rows.lookup path = some row) : Found p.world.rows path :=
  (hp.invariant (Growing readOnly) (fun _ _ _ h hC hs => h.step hC hs)
    ⟨tree_initial, fun _ ht => by cases ht⟩).tree.found hrow

theorem walk_reaches_file : ∃ p : Calls, Found p.world.rows filePath := by
  have hrun : ((service false).runsIf Apart (Pool.idle ⟨initial, 0⟩)
      (started 0 3 (.create dirPath .dir) ++ started 1 3 (.create filePath (.file [])))).map
        (fun p => (p.world.rows.lookup filePath).isSome) = some true := by
    decide +kernel
  obtain ⟨p, hp, hrow⟩ := Option.map_eq_some_iff.mp hrun
  obtain ⟨row, hrow⟩ := Option.isSome_iff_exists.mp hrow
  exact ⟨p, walk_reaches false 0 (Service.reachUnder_of_runsIf hp) hrow⟩

/-- A directory is removed between the look at it and the insertion under it: the new row
has no parent. And two paths with one name in one listing. -/
theorem orphan_row :
    ((service false).runs (Pool.idle ⟨initial, 0⟩)
      (started 0 3 (.create dirPath .dir) ++ started 1 1 (.create filePath (.file [])) ++
        started 2 2 (.remove dirPath) ++ [.run 1 false])).map
          (fun p => ((p.world.rows.lookup filePath).map Row.parent, p.world.rows.lookup dirPath)) =
      some (some (some dirPath), none) ∧
    ((service false).runs (Pool.idle ⟨initial, 0⟩)
      (started 0 3 (.create dirPath .dir) ++ started 1 3 (.create filePath (.file [])) ++
        started 2 3 (.create "/d//f".toList .dir))).map
          (fun p => (childRows p.world.rows dirPath).map fun e => (entry e.1 e.2).name) =
      some ["f".toList, "f".toList] := by
  decide +kernel

end NoizuMcp.Vfs.Database
