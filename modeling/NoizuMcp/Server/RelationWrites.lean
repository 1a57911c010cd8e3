import NoizuMcp.Server.RelationNames

/-!
# The flag for writing

`sql/schema` lists each relation with a flag that says whether it can be written. The flag of a
dataset is the one of its `info/0`, if it has a write callback; `sql/modify` looks only at the
callbacks. So a dataset with a callback that says it is not writable is written all the
same. The flags are right (a relation without one is never written, and one with it can be) just
if the relation that each listed name finds takes writes as the flag says (`writes_follow_flag`).
-/

set_option autoImplicit false

namespace NoizuMcp.Relations

open NoizuMcp.Server Server.Wire

open Protocol (Json Fields RpcError)

open Catalog (Ctx Kind crashed)

variable {δ : Type} {platform : Platform} {server : Server δ} {ctx : Ctx δ}

/-! ## Where a relation comes from -/

/-- The descriptors: a derived relation, one of a tool, or one of a dataset. -/
inductive BuiltAs (platform : Platform) (server : Server δ) (ctx : Ctx δ) : Relation δ → Prop
  | derived {relation : Relation δ} (h : relation ∈ catalogRelations) :
      BuiltAs platform server ctx relation
  | tool {relation : Relation δ} {tool : Tool} {map : ToolMap}
      (htool : tool ∈ effectiveTools server ctx) (hmap : tool.toMap {} = some map)
      (h : toolRelation platform map = some relation) : BuiltAs platform server ctx relation
  | dataset {entry : Registration δ} (hentry : entry ∈ server.datasets) :
      BuiltAs platform server ctx (datasetRelation entry)

theorem mem_of_mapM {α β : Type} {f : α → Option β} {items : List α} {values : List β}
    (h : items.mapM f = some values) {value : β} (hmem : value ∈ values) :
    ∃ item ∈ items, f item = some value := by
  obtain ⟨i, hi, rfl⟩ := List.getElem_of_mem hmem
  have hall := List.forall₂_iff_get.mp (forall₂_of_mapM h)
  exact ⟨_, List.get_mem _ _, hall.2 i (hall.1 ▸ hi) hi⟩

variable {relation : Relation δ} {dataset : Dataset δ} {arguments : Fields}

theorem builtAs_of_mem {includeHidden : Bool} {all : List (Relation δ)}
    (hall : relations platform server ctx includeHidden = some all) (hmem : relation ∈ all) :
    BuiltAs platform server ctx relation := by
  obtain ⟨tools, htools, rfl⟩ := Option.map_eq_some_iff.mp hall
  rcases List.mem_append.mp hmem with hfixed | hdataset
  · rcases List.mem_append.mp hfixed with hcatalog | htool
    · exact .derived hcatalog
    · obtain ⟨tool, htool, hrelation⟩ := mem_of_mapM htools htool
      obtain ⟨map, hmap, hbuilt⟩ := Option.bind_eq_some_iff.mp hrelation
      exact .tool htool hmap hbuilt
  · obtain ⟨entry, hentry, rfl⟩ := List.mem_map.mp hdataset
    exact .dataset (List.mem_filter.mp hentry).1

/-- What the descriptor of a tool says about writing. -/
theorem toolRelation_writes {map : ToolMap} (h : toolRelation platform map = some relation) :
    relation.writable = true ∧ relation.kind = .tool ∧
      relation.source = .through (.tool map.name) := by
  obtain ⟨input, output, _, _, rfl⟩ := toolRelation_inv h
  exact ⟨rfl, rfl, rfl⟩

theorem catalogRelations_flag (h : relation ∈ catalogRelations) : relation.writable = false := by
  simp only [catalogRelations, List.mem_cons, List.not_mem_nil, or_false] at h
  rcases h with rfl | rfl | rfl | rfl | rfl | rfl | rfl | rfl <;> rfl

/-- No handler of a derived relation is a tool or a dataset. -/
theorem catalogRelations_writes (h : relation ∈ catalogRelations) (op : Op) (params : Fields) :
    ∃ error, write platform server relation op params ctx = (.error error, []) := by
  simp only [catalogRelations, List.mem_cons, List.not_mem_nil, or_false] at h
  rcases h with rfl | rfl | rfl | rfl | rfl | rfl | rfl | rfl <;> exact ⟨_, rfl⟩

/-! ## Relations that take no write -/

/-- The request to write something. -/
def writeParams (name : String) (op : Op) (rows : List Json) : Fields :=
  [("relation", .str name), ("op", .str op.name), ("rows", .arr rows)]

theorem fetchOp_writeParams (name : String) (op : Op) (rows : List Json) :
    fetchOp platform (writeParams name op rows) = .ok op := by
  cases op <;> rfl

theorem Dataset.ops_eq_nil :
    dataset.ops.isEmpty = true ↔
      dataset.insert = none ∧ dataset.update = none ∧ dataset.delete = none := by
  unfold Dataset.ops
  cases dataset.insert <;> cases dataset.update <;> cases dataset.delete <;> simp

theorem write_dataset (hsource : relation.source = .through (.dataset dataset)) (op : Op)
    (params : Fields) :
    write platform server relation op params ctx =
      (datasetWrite platform relation dataset params ctx op).getD
        (.error (.methodNotFound ("sql/modify " ++ op.name ++ " on relation " ++ relation.name)),
          []) := by
  unfold write
  rw [hsource]

/-- A dataset without callbacks answers every write with an error. -/
theorem write_without_ops (hsource : relation.source = .through (.dataset dataset))
    (h : dataset.ops.isEmpty = true) (op : Op) (params : Fields) :
    ∃ error, write platform server relation op params ctx = (.error error, []) := by
  obtain ⟨hinsert, hupdate, hdelete⟩ := Dataset.ops_eq_nil.mp h
  have hnone : datasetWrite platform relation dataset params ctx op = none := by
    cases op with
    | insert => rw [datasetWrite, hinsert, Option.map_none]
    | update => rw [datasetWrite, hupdate, Option.map_none]
    | delete => rw [datasetWrite, hdelete, Option.map_none]
  rw [write_dataset hsource, hnone]
  exact ⟨_, rfl⟩

/-- A write that would fail, or that the caller may not make, fails as a request, and reaches
nothing. -/
theorem modifyListed_refused
    (h : authorize server relation ctx = .ok () → ∀ op params,
      ∃ error, write platform server relation op params ctx = (.error error, []))
    (params : Fields) :
    ∃ error, modifyListed platform server ctx relation params = (.error error, []) := by
  unfold modifyListed
  cases fetchOp platform params with
  | error error => exact ⟨error, rfl⟩
  | ok op =>
    unfold modifyRelation
    cases hauthorized : authorize server relation ctx with
    | error error => exact ⟨error, rfl⟩
    | ok => exact h hauthorized op params

theorem modifyListed_write (hauthorized : authorize server relation ctx = .ok ()) (name : String)
    (op : Op) (rows : List Json) :
    modifyListed platform server ctx relation (writeParams name op rows) =
      write platform server relation op (writeParams name op rows) ctx := by
  rw [modifyListed, fetchOp_writeParams]
  dsimp only
  rw [modifyRelation, hauthorized]

/-! ## Relations that take one -/

/-- Arguments of which a row can be made: each stands in a column for quals. -/
def Sendable (relation : Relation δ) (arguments : Fields) : Prop :=
  ∀ entry ∈ arguments, entry.1 ∈ relation.qualColumns

theorem givenArguments_obj (h : Sendable relation arguments) :
    givenArguments relation (.obj arguments) = some arguments := by
  have hall : arguments.filter (fun entry => relation.qualColumns.contains entry.1) = arguments :=
    List.filter_eq_self.mpr fun entry hentry => List.contains_iff_mem.mpr (h entry hentry)
  exact congrArg some hall

/-- An insert of one row calls the tool, if the tool takes the arguments of the row. -/
theorem write_tool_reaches {tool : String} {callable : Callable}
    (hsource : relation.source = .through (.tool tool))
    (hresolve : server.resolve tool ctx = .ok callable) (hsendable : Sendable relation arguments)
    (haccepts : callable.accepts arguments = true) (name : String) :
    (write platform server relation .insert
      (writeParams name .insert [.obj arguments]) ctx).2 = [.tool tool arguments] := by
  have hinvoke : invokeTool server tool arguments ctx =
      (callable.run arguments, [.tool tool arguments]) := by
    simp only [invokeTool, hresolve, haccepts, if_true]
  have hrows : givenRows (writeParams name .insert [.obj arguments]) =
      some [.obj arguments] := rfl
  unfold write
  rw [hsource]
  simp only [hrows, insertRows, givenArguments_obj hsendable, hinvoke]
  cases callable.run arguments with
  | error => rfl
  | ok => rfl

/-- Some operation of a dataset with a callback reaches it. -/
theorem write_dataset_reaches (hsource : relation.source = .through (.dataset dataset))
    (hops : dataset.ops.isEmpty = false) (name : String) :
    ∃ op, (write platform server relation op (writeParams name op []) ctx).2 =
      [.dataset relation.name op] := by
  have hsome : dataset.insert.isSome ∨ dataset.update.isSome ∨ dataset.delete.isSome := by
    by_contra hnone
    simp only [not_or, Bool.not_eq_true, Option.isSome_eq_false_iff, Option.isNone_iff_eq_none]
      at hnone
    rw [Dataset.ops_eq_nil.mpr hnone] at hops
    cases hops
  rcases hsome with hinsert | hupdate | hdelete
  · obtain ⟨callback, hcallback⟩ := Option.isSome_iff_exists.mp hinsert
    refine ⟨.insert, ?_⟩
    rw [write_dataset hsource, datasetWrite, hcallback]
    rfl
  · obtain ⟨callback, hcallback⟩ := Option.isSome_iff_exists.mp hupdate
    refine ⟨.update, ?_⟩
    rw [write_dataset hsource, datasetWrite, hcallback]
    rfl
  · obtain ⟨callback, hcallback⟩ := Option.isSome_iff_exists.mp hdelete
    refine ⟨.delete, ?_⟩
    rw [write_dataset hsource, datasetWrite, hcallback]
    rfl

theorem sendable_givenArguments {row : Json}
    (h : givenArguments relation row = some arguments) : Sendable relation arguments := by
  unfold givenArguments at h
  split at h
  case h_1 fields _ =>
    cases h
    exact fun entry hentry => List.contains_iff_mem.mp (List.mem_filter.mp hentry).2
  case h_2 => cases h

/-- What an insert reaches it reaches with arguments that the tool takes. -/
theorem insertRows_reaches {tool : String} {rows : List Json}
    (h : (insertRows server relation tool ctx rows).2 ≠ []) :
    ∃ callable arguments, server.resolve tool ctx = .ok callable ∧
      Sendable relation arguments ∧ callable.accepts arguments = true := by
  induction rows with
  | nil => exact absurd rfl h
  | cons row rest ih =>
    unfold insertRows at h
    split at h
    case h_1 => exact absurd rfl h
    case h_2 arguments harguments =>
      -- Either this row reaches the tool, or a later one does.
      have hhere : (invokeTool server tool arguments ctx).2 ≠ [] ∨
          (insertRows server relation tool ctx rest).2 ≠ [] := by
        by_contra hnone
        simp only [not_or, not_not] at hnone
        cases hinvoke : invokeTool server tool arguments ctx with
        | mk reply reached =>
          cases hrest : insertRows server relation tool ctx rest with
          | mk later reached' =>
            rw [hinvoke, hrest] at hnone
            obtain ⟨rfl, rfl⟩ := hnone
            rw [hinvoke, hrest] at h
            cases reply <;> cases later <;> exact h rfl
      rcases hhere with hhere | hlater
      · unfold invokeTool at hhere
        split at hhere
        case h_1 => exact absurd rfl hhere
        case h_2 callable hresolve =>
          split at hhere
          case isTrue haccepts =>
            exact ⟨callable, arguments, hresolve, sendable_givenArguments harguments, haccepts⟩
          case isFalse => exact absurd rfl hhere
      · exact ih hlater

/-! ## The flag -/

/-- Some write of the relation runs a callback: a dataset that has one and that the caller may use,
or a tool that resolves for the caller and accepts arguments that its columns can carry. -/
def Takes (server : Server δ) (ctx : Ctx δ) (relation : Relation δ) : Prop :=
  match relation.source with
  | .through (.tool tool) => ∃ callable arguments, server.resolve tool ctx = .ok callable ∧
      Sendable relation arguments ∧ callable.accepts arguments = true
  | .through (.dataset dataset) =>
    dataset.ops.isEmpty = false ∧ server.allows relation.name ctx = true
  | _ => False

/-- Some write of the relation is not refused: an insert of no rows into a tool relation runs
nothing, and is no error. -/
def Answers (server : Server δ) (ctx : Ctx δ) (relation : Relation δ) : Prop :=
  match relation.source with
  | .through (.tool _) => True
  | .through (.dataset dataset) =>
    dataset.ops.isEmpty = false ∧ server.allows relation.name ctx = true
  | _ => False

theorem authorize_dataset {entry : Registration δ} :
    authorize server (datasetRelation entry) ctx = .ok () ↔
      server.allows entry.wireName ctx = true := by
  simp [authorize, datasetRelation]

theorem authorize_tool (hkind : relation.kind = .tool) :
    authorize server relation ctx = .ok () := by
  rw [authorize, hkind]
  rfl

theorem answers_derived (h : relation ∈ catalogRelations) : ¬ Answers server ctx relation := by
  simp only [catalogRelations, List.mem_cons, List.not_mem_nil, or_false] at h
  rcases h with rfl | rfl | rfl | rfl | rfl | rfl | rfl | rfl <;> exact id

theorem takes_answers (h : Takes server ctx relation) : Answers server ctx relation := by
  unfold Takes at h
  unfold Answers
  split at h
  case h_1 => trivial
  case h_2 => exact h
  case h_3 => exact h.elim

/-- A relation is refused to every write just if it answers none. -/
theorem refused_iff (hbuilt : BuiltAs platform server ctx relation) (name : String) :
    (∀ params : Fields, Sql.field params "relation" = .str name →
        ∃ error, modifyListed platform server ctx relation params = (.error error, [])) ↔
      ¬ Answers server ctx relation := by
  cases hbuilt with
  | derived h =>
    refine iff_of_true (fun params _ => ?_) (answers_derived h)
    exact modifyListed_refused (fun _ => catalogRelations_writes h) params
  | tool _ _ h =>
    obtain ⟨_, hkind, hsource⟩ := toolRelation_writes h
    refine iff_of_false (fun hrefused => ?_) (fun hnone => hnone (by simp [Answers, hsource]))
    obtain ⟨error, herror⟩ := hrefused (writeParams name .insert []) rfl
    rw [modifyListed_write (authorize_tool hkind)] at herror
    unfold write at herror
    rw [hsource] at herror
    cases herror
  | @dataset entry hentry =>
    have hanswers : Answers server ctx (datasetRelation entry) ↔
        entry.dataset.ops.isEmpty = false ∧ server.allows entry.wireName ctx = true := Iff.rfl
    rw [hanswers, ← authorize_dataset]
    constructor
    · rintro hrefused ⟨hops, hauthorized⟩
      have hsource : (datasetRelation entry).source = .through (.dataset entry.dataset) := rfl
      obtain ⟨op, hop⟩ := write_dataset_reaches hsource hops name
      obtain ⟨error, herror⟩ := hrefused (writeParams name op []) rfl
      rw [modifyListed_write hauthorized] at herror
      rw [herror] at hop
      cases hop
    · intro hnone params _
      refine modifyListed_refused (fun hauthorized => write_without_ops rfl ?_) params
      by_contra hops
      exact hnone ⟨Bool.not_eq_true _ ▸ hops, hauthorized⟩

/-- What a write of a tool relation reaches an insert reaches. -/
theorem write_tool_inserts {tool : String} (hsource : relation.source = .through (.tool tool))
    {op : Op} {params : Fields} (h : (write platform server relation op params ctx).2 ≠ []) :
    ∃ rows, (insertRows server relation tool ctx rows).2 ≠ [] := by
  unfold write at h
  rw [hsource] at h
  cases op with
  | insert =>
    dsimp only at h
    split at h
    case h_1 => exact absurd rfl h
    case h_2 rows _ => exact ⟨rows, h⟩
  | update | delete => exact absurd rfl h

/-- A write of the relation can run something just if it takes one. -/
theorem reaches_iff (hbuilt : BuiltAs platform server ctx relation) (name : String) :
    (∃ params : Fields, Sql.field params "relation" = .str name ∧
        (modifyListed platform server ctx relation params).2 ≠ []) ↔
      Takes server ctx relation := by
  have hanswers : (∃ params : Fields, Sql.field params "relation" = .str name ∧
      (modifyListed platform server ctx relation params).2 ≠ []) →
        Answers server ctx relation := by
    rintro ⟨params, hparams, hreached⟩
    by_contra hnone
    obtain ⟨error, herror⟩ := (refused_iff hbuilt name).mpr hnone params hparams
    rw [herror] at hreached
    exact hreached rfl
  cases hbuilt with
  | derived h =>
    exact iff_of_false (fun hreached => answers_derived h (hanswers hreached))
      (fun htakes => answers_derived h (takes_answers htakes))
  | @tool _ tool map _ _ h =>
    obtain ⟨_, hkind, hsource⟩ := toolRelation_writes h
    have htakes : Takes server ctx relation ↔ ∃ callable arguments,
        server.resolve map.name ctx = .ok callable ∧ Sendable relation arguments ∧
          callable.accepts arguments = true := by rw [Takes, hsource]
    rw [htakes]
    constructor
    · rintro ⟨params, _, hreached⟩
      unfold modifyListed at hreached
      split at hreached
      case h_1 => exact absurd rfl hreached
      case h_2 =>
        rw [modifyRelation, authorize_tool hkind] at hreached
        obtain ⟨rows, hrows⟩ := write_tool_inserts hsource hreached
        exact insertRows_reaches hrows
    · rintro ⟨callable, arguments, hresolve, hsendable, haccepts⟩
      refine ⟨writeParams name .insert [.obj arguments], rfl, ?_⟩
      rw [modifyListed_write (authorize_tool hkind),
        write_tool_reaches hsource hresolve hsendable haccepts]
      exact List.cons_ne_nil _ _
  | @dataset entry hentry =>
    refine ⟨hanswers, fun htakes => ?_⟩
    have hsource : (datasetRelation entry).source = .through (.dataset entry.dataset) := rfl
    obtain ⟨op, hop⟩ := write_dataset_reaches hsource htakes.1 name
    refine ⟨writeParams name op [], rfl, ?_⟩
    rw [modifyListed_write (authorize_dataset.mpr htakes.2), hop]
    exact List.cons_ne_nil _ _

/-- What the flag of a relation says of the writes to its name. -/
structure FollowsFlag (platform : Platform) (server : Server δ) (ctx : Ctx δ)
    (relation : Relation δ) : Prop where
  refused : relation.writable = false → ∀ params : Fields,
    Sql.field params "relation" = .str relation.name →
      ∃ error, modify platform server ctx params = (.error error, [])
  reaches : relation.writable = true → ∃ params : Fields,
    Sql.field params "relation" = .str relation.name ∧ (modify platform server ctx params).2 ≠ []

/-- The flag of a relation fits the relation that its name finds. -/
def Fits (server : Server δ) (ctx : Ctx δ) (name : String) (flag : Bool) (found : Relation δ) :
    Prop :=
  if flag then name ≠ "" ∧ Takes server ctx found else name = "" ∨ ¬ Answers server ctx found

theorem followsFlag_iff {found : Relation δ}
    (hfetch : fetch platform server ctx relation.name = .ok found)
    (hbuilt : BuiltAs platform server ctx found) :
    FollowsFlag platform server ctx relation ↔
      Fits server ctx relation.name relation.writable found := by
  by_cases hempty : relation.name = ""
  · have hrefused : ∀ params : Fields, Sql.field params "relation" = .str relation.name →
        ∃ error, modify platform server ctx params = (.error error, []) := by
      intro params hparams
      rw [hempty] at hparams
      obtain ⟨error, herror⟩ := @fetchRelation_empty "sql/modify" params hparams
      exact ⟨error, by rw [modify, herror]⟩
    unfold Fits
    split
    case isTrue hflag =>
      refine iff_of_false (fun h => ?_) (fun h => h.1 hempty)
      obtain ⟨params, hparams, hreached⟩ := h.reaches hflag
      obtain ⟨error, herror⟩ := hrefused params hparams
      rw [herror] at hreached
      exact hreached rfl
    case isFalse hflag =>
      exact iff_of_true ⟨fun _ => hrefused, fun h => absurd h hflag⟩ (.inl hempty)
  · have hmodify : ∀ params : Fields, Sql.field params "relation" = .str relation.name →
        modify platform server ctx params = modifyListed platform server ctx found params :=
      fun params => modify_of_fetch hempty hfetch
    unfold Fits
    split
    case isTrue hflag =>
      rw [← reaches_iff hbuilt relation.name]
      constructor
      · intro h
        obtain ⟨params, hparams, hreached⟩ := h.reaches hflag
        exact ⟨hempty, params, hparams, hmodify params hparams ▸ hreached⟩
      · rintro ⟨_, params, hparams, hreached⟩
        refine ⟨fun h => by simp [hflag] at h, fun _ => ⟨params, hparams, ?_⟩⟩
        rw [hmodify params hparams]
        exact hreached
    case isFalse hflag =>
      rw [or_iff_right hempty, ← refused_iff hbuilt relation.name]
      constructor
      · intro h params hparams
        rw [← hmodify params hparams]
        exact h.refused (by simpa using hflag) params hparams
      · intro h
        refine ⟨fun _ params hparams => ?_, fun hwritable => absurd hwritable hflag⟩
        rw [hmodify params hparams]
        exact h params hparams

/-- The flags of a server are honest for a caller: the name of a visible tool's relation finds a
relation that takes a write, and the name of a listed dataset one that fits the flag of the
dataset. -/
structure HonestFlags (platform : Platform) (server : Server δ) (ctx : Ctx δ) : Prop where
  tools : ∀ name ∈ toolNames platform server ctx, ∀ found,
    fetch platform server ctx name = .ok found → Takes server ctx found
  datasets : ∀ entry ∈ server.datasets, entry.hidden = false → ∀ found,
    fetch platform server ctx entry.wireName = .ok found →
      Fits server ctx entry.wireName (entry.dataset.infoWritable && !entry.dataset.ops.isEmpty)
        found

theorem fetch_listed {relations' : List (Relation δ)}
    (hlisted : listed platform server ctx = some relations') (hmem : relation ∈ relations') :
    ∃ found, fetch platform server ctx relation.name = .ok found ∧
      BuiltAs platform server ctx found := by
  obtain ⟨tools, htools, rfl⟩ := Option.map_eq_some_iff.mp hlisted
  have hall : relation ∈ catalogRelations ++ tools ++ datasetRelations server true := by
    rcases List.mem_append.mp hmem with hfixed | hdataset
    · exact List.mem_append_left _ hfixed
    · obtain ⟨entry, hentry, rfl⟩ := List.mem_map.mp hdataset
      exact List.mem_append_right _ (List.mem_map_of_mem
        (List.mem_filter.mpr ⟨(List.mem_filter.mp hentry).1, rfl⟩))
  have hsome : ((catalogRelations ++ tools ++ datasetRelations server true).find?
      fun other : Relation δ => other.name == relation.name).isSome :=
    List.find?_isSome.mpr ⟨relation, hall, beq_self_eq_true _⟩
  obtain ⟨found, hfound⟩ := Option.isSome_iff_exists.mp hsome
  have hrelations : relations platform server ctx true =
      some (catalogRelations ++ tools ++ datasetRelations server true) := by
    rw [relations, htools, Option.map_some]
  exact ⟨found, (fetch_eq_ok htools).mpr hfound,
    builtAs_of_mem hrelations (List.mem_of_find?_eq_some hfound)⟩

theorem fetch_derived {tools : List (Relation δ)}
    (htools : toolRelations platform server ctx = some tools) (h : relation ∈ catalogRelations) :
    fetch platform server ctx relation.name = .ok relation := by
  rw [fetch_eq_ok htools, List.append_assoc, List.find?_append,
    find_of_nodup catalog_names_nodup h]
  rfl

/-- A relation that `sql/schema` lists as not writable answers every write with an error and runs
nothing, and one that it lists as writable has a write that runs a callback, just if the flags are
honest. -/
theorem writes_follow_flag (platform : Platform) (server : Server δ) (ctx : Ctx δ)
    (relations : List (Relation δ)) (hlisted : listed platform server ctx = some relations) :
    (∀ relation ∈ relations, FollowsFlag platform server ctx relation) ↔
      HonestFlags platform server ctx := by
  obtain ⟨tools, htools, hrelations⟩ := Option.map_eq_some_iff.mp hlisted
  constructor
  · intro h
    refine ⟨fun name hname found hfetch => ?_, fun entry hentry hvisible found hfetch => ?_⟩
    · rw [← names_of_toolRelations htools] at hname
      obtain ⟨relation, hrelation, rfl⟩ := List.mem_map.mp hname
      have hmem : relation ∈ relations :=
        hrelations ▸ List.mem_append_left _ (List.mem_append_right _ hrelation)
      obtain ⟨found', hfetch', hbuilt⟩ := fetch_listed hlisted hmem
      cases hfetch.symm.trans hfetch'
      have hfits := (followsFlag_iff hfetch hbuilt).mp (h relation hmem)
      obtain ⟨tool, _, hbuilt⟩ := mem_of_mapM htools hrelation
      obtain ⟨map, _, hbuilt⟩ := Option.bind_eq_some_iff.mp hbuilt
      rw [(toolRelation_writes hbuilt).1] at hfits
      exact hfits.2
    · have hmem : datasetRelation entry ∈ relations :=
        hrelations ▸ List.mem_append_right _ (List.mem_map_of_mem
          (List.mem_filter.mpr ⟨hentry, by simp [hvisible]⟩))
      obtain ⟨found', hfetch', hbuilt⟩ := fetch_listed hlisted hmem
      cases hfetch.symm.trans hfetch'
      exact (followsFlag_iff hfetch hbuilt).mp (h _ hmem)
  · intro h relation hmem
    obtain ⟨found, hfetch, hbuilt⟩ := fetch_listed hlisted hmem
    rw [followsFlag_iff hfetch hbuilt]
    rw [← hrelations] at hmem
    rcases List.mem_append.mp hmem with hfixed | hdataset
    · rcases List.mem_append.mp hfixed with hcatalog | htool
      · cases hfetch.symm.trans (fetch_derived htools hcatalog)
        unfold Fits
        rw [catalogRelations_flag hcatalog]
        exact .inr (answers_derived hcatalog)
      · have hname : relation.name ∈ toolNames platform server ctx :=
          names_of_toolRelations htools ▸ List.mem_map_of_mem htool
        obtain ⟨tool, _, hbuilt'⟩ := mem_of_mapM htools htool
        obtain ⟨map, _, hbuilt'⟩ := Option.bind_eq_some_iff.mp hbuilt'
        rw [(toolRelation_writes hbuilt').1]
        exact ⟨fixed_name_ne_empty (.inr hname), h.tools _ hname found hfetch⟩
    · obtain ⟨entry, hentry, rfl⟩ := List.mem_map.mp hdataset
      obtain ⟨hentry, hvisible⟩ := List.mem_filter.mp hentry
      exact h.datasets entry hentry (by simpa using hvisible) found hfetch

/-! A dataset that says it is not writable and has an insert, and one that the caller may not
use. -/

/-- A dataset that is not writable, but has the callbacks. -/
def audited : Server Unit :=
  offering [] [{ dataset := { openDataset "audit" with writable := some false } }]

/-- A dataset that nobody may touch. -/
def denied : Server Unit :=
  { offering [] [{ dataset := openDataset "sessions" }] with allows := fun _ _ => false }

/-- The relations that `sql/schema` lists after the derived ones, with their flags. -/
def ownFlags (server : Server Unit) : Option (List (String × Bool)) :=
  (listed plainPlatform server anyone).map fun relations =>
    (relations.drop 8).map fun relation => (relation.name, relation.writable)

theorem takes_of_fetch {name : String} {found : Relation Unit}
    (hfetch : fetch plainPlatform apart anyone name = .ok found) (hname : name ∉ reserved) :
    Takes apart anyone found := by
  have hsome : (toolRelations plainPlatform apart anyone).isSome := by decide +kernel
  obtain ⟨tools, htools⟩ := Option.isSome_iff_exists.mp hsome
  have hfind := (fetch_eq_ok htools).mp hfetch
  have heq : found.name = name := by simpa using List.find?_some hfind
  have hrelations : relations plainPlatform apart anyone true =
      some (catalogRelations ++ tools ++ datasetRelations apart true) := by
    rw [relations, htools, Option.map_some]
  cases builtAs_of_mem hrelations (List.mem_of_find?_eq_some hfind) with
  | derived h => exact absurd (mem_catalog_names.mp (List.mem_map_of_mem h)) (heq ▸ hname)
  | tool _ _ h =>
    rw [Takes, (toolRelation_writes h).2.2]
    have hsendable : Sendable found [] := by
      intro entry hentry
      cases hentry
    exact ⟨idleTool, [], rfl, hsendable, rfl⟩
  | dataset hentry =>
    obtain rfl := List.mem_singleton.mp hentry
    exact ⟨rfl, rfl⟩

/-- All three can be written, as their flags say. -/
theorem apart_flags_followed :
    HonestFlags plainPlatform apart anyone ∧
      ∃ relations, listed plainPlatform apart anyone = some relations ∧
        ∀ relation ∈ relations, FollowsFlag plainPlatform apart anyone relation := by
  have hhonest : HonestFlags plainPlatform apart anyone := by
    refine ⟨fun name hname found hfetch => ?_, fun entry hentry _ found hfetch => ?_⟩
    · obtain ⟨tool, _, rfl⟩ := List.mem_map.mp hname
      exact takes_of_fetch hfetch (toolRelationName_not_reserved plainPlatform tool.name)
    · obtain rfl := List.mem_singleton.mp hentry
      exact ⟨by decide, takes_of_fetch hfetch (by decide)⟩
  have hlisted : (listed plainPlatform apart anyone).isSome := by decide +kernel
  obtain ⟨relations, hrelations⟩ := Option.isSome_iff_exists.mp hlisted
  exact ⟨hhonest, relations, hrelations,
    (writes_follow_flag plainPlatform apart anyone relations hrelations).mpr hhonest⟩

/-- An insert into a relation that is listed as not writable runs the callback, and no write to one
that is listed as writable runs anything. -/
theorem flag_not_followed :
    (ownFlags audited = some [("audit", false)] ∧
      insertReaches audited "audit" = [.dataset "audit" .insert]) ∧
    ownFlags denied = some [("sessions", true)] ∧
      ∀ params : Fields, Sql.field params "relation" = .str "sessions" →
        (modify plainPlatform denied anyone params).2 = [] := by
  refine ⟨by decide +kernel, by decide +kernel, fun params hparams => ?_⟩
  rw [modify, fetchRelation_of_name hparams (by decide)]
  cases fetchOp plainPlatform params with
  | error => rfl
  | ok => rfl

end NoizuMcp.Relations
