import Mathlib.Data.List.Nodup
import NoizuMcp.Server.Relations

/-!
# The names of the relations

`sql/scan` and `sql/modify` act on the first relation of the name they are given. The derived
relations are never shadowed, since the name of a tool relation starts with `tool_`. The names of
the tools are lowered, stripped and cut, so two tools can share one, and a dataset can be
registered under the name of a tool relation; then the later of the two is listed and never
reached. Every listed relation is the one its name finds just if the names are apart
(`reached_by_own_name`).
-/

set_option autoImplicit false

namespace NoizuMcp.Relations

open NoizuMcp.Server Server.Wire

open Protocol (Json Fields RpcError)

open Catalog (Ctx Kind crashed)

variable {δ : Type} {platform : Platform} {server : Server δ} {ctx : Ctx δ}

/-! ## Names of tools -/

/-- What every name of a tool relation starts with. -/
def toolMark : List Char := "tool_".toList

theorem toolMark_starts (platform : Platform) (name : String) :
    toolMark <+: (toolRelationName platform name).toList := by
  rw [toolRelationName, String.toList_ofList, List.prefix_take_iff]
  exact ⟨List.prefix_append _ _, by decide⟩

/-- No derived relation has the name of a tool relation. -/
theorem toolRelationName_not_reserved (platform : Platform) (name : String) :
    toolRelationName platform name ∉ reserved := by
  have hreserved : ∀ other ∈ reserved, ¬toolMark <+: other.toList := by decide
  intro hmem
  exact hreserved _ hmem (toolMark_starts platform name)

theorem name_of_toolRelation {map : ToolMap} {relation : Relation δ}
    (h : toolRelation platform map = some relation) :
    relation.name = toolRelationName platform map.name := by
  obtain ⟨input, output, _, _, rfl⟩ := toolRelation_inv h
  rfl

theorem name_of_toMap {tool : Tool} {render : RenderCtx} {map : ToolMap}
    (h : tool.toMap render = some map) : map.name = tool.name := by
  obtain ⟨annotations, _, rfl⟩ := Option.map_eq_some_iff.mp h
  rfl

/-- The results of a map that can fail, one by one. -/
theorem forall₂_of_mapM {α β : Type} {f : α → Option β} {items : List α} {values : List β}
    (h : items.mapM f = some values) :
    List.Forall₂ (fun item value => f item = some value) items values := by
  induction items generalizing values with
  | nil =>
    cases h
    exact .nil
  | cons _ _ ih =>
    rw [List.mapM_cons] at h
    obtain ⟨value, hitem, h⟩ := Option.bind_eq_some_iff.mp h
    obtain ⟨rest, hrest, h⟩ := Option.bind_eq_some_iff.mp h
    cases h
    exact .cons hitem (ih hrest)

/-- What holds of each result holds of the list of them. -/
theorem map_of_mapM {α β γ : Type} {f : α → Option β} {g : β → γ} {k : α → γ}
    (hf : ∀ item value, f item = some value → g value = k item) {items : List α} {values : List β}
    (h : items.mapM f = some values) : values.map g = items.map k := by
  have hall := forall₂_of_mapM h
  clear h
  induction hall with
  | nil => rfl
  | cons hitem _ ih => rw [List.map_cons, List.map_cons, hf _ _ hitem, ih]

/-- The names that the relations of the tools get. -/
def toolNames (platform : Platform) (server : Server δ) (ctx : Ctx δ) : List String :=
  (effectiveTools server ctx).map fun tool => toolRelationName platform tool.name

theorem names_of_toolRelations {tools : List (Relation δ)}
    (h : toolRelations platform server ctx = some tools) :
    tools.map (·.name) = toolNames platform server ctx := by
  refine map_of_mapM ?_ h
  intro tool relation hrelation
  obtain ⟨map, hmap, hbuilt⟩ := Option.bind_eq_some_iff.mp hrelation
  rw [name_of_toolRelation hbuilt, name_of_toMap hmap]

/-! ## Names that are apart -/

/-- The names of the datasets that are listed. -/
def datasetNames (server : Server δ) : List String :=
  (server.datasets.filter fun entry => !entry.hidden).map (·.wireName)

/-- The names of a server are apart: no two tools share the name of their relation, and no two
listed datasets theirs; none of these has the name of a derived relation or of a tool relation, or
no name at all; and the first dataset of its name, hidden ones included, is the one that is
listed. -/
structure NamesApart (platform : Platform) (server : Server δ) (ctx : Ctx δ) : Prop where
  tools : (toolNames platform server ctx).Nodup
  datasets : (datasetNames server).Nodup
  free : ∀ name ∈ datasetNames server,
    name ∉ reserved ∧ name ∉ toolNames platform server ctx ∧ name ≠ ""
  first : ∀ entry ∈ server.datasets, entry.hidden = false →
    (server.datasets.find? fun other => other.wireName == entry.wireName).map datasetRelation =
      some (datasetRelation entry)

/-- A relation whose name occurs once is the one its name finds. -/
theorem find_of_nodup {relations : List (Relation δ)} (h : (relations.map (·.name)).Nodup)
    {relation : Relation δ} (hmem : relation ∈ relations) :
    relations.find? (·.name == relation.name) = some relation := by
  induction relations with
  | nil => cases hmem
  | cons head _ ih =>
    rw [List.map_cons, List.nodup_cons] at h
    rw [List.find?_cons]
    by_cases heq : head.name = relation.name
    · rcases List.mem_cons.mp hmem with rfl | hrest
      · simp
      · exact absurd (heq ▸ List.mem_map_of_mem hrest) h.1
    · rw [beq_eq_false_iff_ne.mpr heq]
      rcases List.mem_cons.mp hmem with rfl | hrest
      · exact absurd rfl heq
      · exact ih h.2 hrest

theorem catalog_names_nodup : ((catalogRelations : List (Relation δ)).map (·.name)).Nodup := by
  change ["tools", "prompts", "resources", "prompt_arguments", "resource_templates",
    "prompt_messages", "resource_contents", "completions"].Nodup
  decide

theorem mem_catalog_names {name : String} :
    name ∈ (catalogRelations : List (Relation δ)).map (·.name) ↔ name ∈ reserved := by
  have hnames : (catalogRelations : List (Relation δ)).map (·.name) =
      ["tools", "prompts", "resources", "prompt_arguments", "resource_templates",
        "prompt_messages", "resource_contents", "completions"] := rfl
  rw [hnames]
  simp only [reserved, List.mem_cons, List.not_mem_nil, or_false]
  tauto

theorem names_listed : (datasetRelations server false).map (·.name) = datasetNames server := by
  rw [datasetRelations, datasetNames, List.map_map]
  rfl

/-- The first dataset of a name, hidden ones included. -/
theorem find_datasetRelations (name : String) :
    (datasetRelations server true).find? (·.name == name) =
      (server.datasets.find? fun other => other.wireName == name).map datasetRelation := by
  simp only [datasetRelations, Bool.true_or, List.filter_true, List.find?_map]
  rfl

variable {tools : List (Relation δ)}

theorem mem_fixed_names (htools : toolRelations platform server ctx = some tools) {name : String} :
    name ∈ (catalogRelations ++ tools).map Relation.name ↔
      name ∈ reserved ∨ name ∈ toolNames platform server ctx := by
  rw [List.map_append, List.mem_append, mem_catalog_names, names_of_toolRelations htools]

/-- The derived relations and those of the tools share a name just if two tools do. -/
theorem fixed_names_nodup (htools : toolRelations platform server ctx = some tools) :
    ((catalogRelations ++ tools).map Relation.name).Nodup ↔
      (toolNames platform server ctx).Nodup := by
  rw [List.map_append, List.nodup_append, names_of_toolRelations htools]
  refine ⟨fun h => h.2.1, fun h => ⟨catalog_names_nodup, h, ?_⟩⟩
  rintro name hcatalog other hother rfl
  obtain ⟨tool, _, rfl⟩ := List.mem_map.mp hother
  exact toolRelationName_not_reserved platform tool.name (mem_catalog_names.mp hcatalog)

/-- The names in the payload of `sql/schema` are pairwise distinct. -/
theorem listed_nodup (htools : toolRelations platform server ctx = some tools) :
    ((catalogRelations ++ tools ++ datasetRelations server false).map Relation.name).Nodup ↔
      (toolNames platform server ctx).Nodup ∧ (datasetNames server).Nodup ∧
        ∀ name ∈ datasetNames server, name ∉ reserved ∧ name ∉ toolNames platform server ctx := by
  rw [List.map_append, List.nodup_append, fixed_names_nodup htools, names_listed]
  refine and_congr_right fun _ => and_congr_right fun _ => ⟨fun h name hname => ?_, ?_⟩
  · rw [← not_or, ← mem_fixed_names htools]
    exact fun hfixed => h name hfixed name hname rfl
  · rintro h name hfixed other hother rfl
    rw [mem_fixed_names htools] at hfixed
    exact hfixed.elim (h name hother).1 (h name hother).2

/-- A name that no derived relation and no tool has finds a dataset. -/
theorem find_dataset (htools : toolRelations platform server ctx = some tools) {name : String}
    (hreserved : name ∉ reserved) (htool : name ∉ toolNames platform server ctx) :
    (catalogRelations ++ tools ++ datasetRelations server true).find? (·.name == name) =
      (server.datasets.find? fun other => other.wireName == name).map datasetRelation := by
  have hnone : (catalogRelations ++ tools).find?
      (fun other : Relation δ => other.name == name) = none := by
    rw [List.find?_eq_none]
    intro other hother heq
    have hfixed := (mem_fixed_names htools).mp (List.mem_map_of_mem hother)
    rw [beq_iff_eq.mp heq] at hfixed
    exact hfixed.elim hreserved htool
  rw [List.find?_append, hnone, Option.none_or, find_datasetRelations]

theorem fetch_eq_ok {relation : Relation δ} {name : String}
    (htools : toolRelations platform server ctx = some tools) :
    fetch platform server ctx name = .ok relation ↔
      (catalogRelations ++ tools ++ datasetRelations server true).find? (·.name == name) =
        some relation := by
  rw [fetch, relations, htools, Option.map_some]
  dsimp only
  split
  · next hfind => rw [hfind, Except.ok.injEq, Option.some.injEq]
  · next hfind => simp only [hfind, reduceCtorEq]

/-- The name of a relation is accepted in a request, unless it is empty. -/
theorem fetchRelation_of_name {method name : String} {params : Fields}
    (h : Sql.field params "relation" = .str name) (hne : name ≠ "") :
    Sql.fetchRelation method params = .ok name := by
  rw [Sql.fetchRelation, h]
  exact if_neg hne

theorem fetchRelation_empty {method : String} {params : Fields}
    (h : Sql.field params "relation" = .str "") :
    ∃ error, Sql.fetchRelation method params = .error error := by
  rw [Sql.fetchRelation, h]
  exact ⟨_, rfl⟩

/-- A request to scan one relation, whatever its name. -/
def scanListed (platform : Platform) (server : Server δ) (ctx : Ctx δ) (relation : Relation δ)
    (params : Fields) : Except RpcError Sql.Answer :=
  match Sql.scanOpts platform.host.printer params with
  | .error error => .error error
  | .ok opts =>
    match scanRelation platform server ctx relation opts with
    | .rows columns rows nextCursor => .ok (Sql.renderRows columns rows nextCursor)
    | .error error => .error error
    | .other printed => .error (.internal ("sql/scan handler returned " ++ printed))
    | .raised => .error crashed

/-- A request to write one relation, whatever its name. -/
def modifyListed (platform : Platform) (server : Server δ) (ctx : Ctx δ) (relation : Relation δ)
    (params : Fields) : Except RpcError Modified × List Reached :=
  match fetchOp platform params with
  | .error error => (.error error, [])
  | .ok op => modifyRelation platform server ctx relation op params

theorem modify_of_fetch {name : String} {relation : Relation δ} (hne : name ≠ "")
    (hfetch : fetch platform server ctx name = .ok relation) {params : Fields}
    (hparams : Sql.field params "relation" = .str name) :
    modify platform server ctx params = modifyListed platform server ctx relation params := by
  rw [modify, fetchRelation_of_name hparams hne]
  dsimp only
  unfold modifyListed defaultModify
  cases fetchOp platform params with
  | error => rfl
  | ok => simp only [hfetch]

theorem scan_of_fetch {name : String} {relation : Relation δ} (hne : name ≠ "")
    (hfetch : fetch platform server ctx name = .ok relation) {params : Fields}
    (hparams : Sql.field params "relation" = .str name) :
    Sql.scan platform.host.printer (defaultScan platform server ctx) params =
      scanListed platform server ctx relation params := by
  have hscan : ∀ opts, defaultScan platform server ctx name opts =
      scanRelation platform server ctx relation opts := by
    intro opts
    unfold fetch at hfetch
    unfold defaultScan
    split at hfetch
    · cases hfetch
    · split at hfetch <;> simp_all
  rw [Sql.scan, fetchRelation_of_name hparams hne]
  unfold scanListed
  cases Sql.scanOpts platform.host.printer params with
  | error => rfl
  | ok =>
    dsimp only
    rw [hscan]
    rfl

/-- Every request with the name of the relation is accepted, finds this relation, and scans or
writes it. -/
structure ActsOn (platform : Platform) (server : Server δ) (ctx : Ctx δ) (relation : Relation δ) :
    Prop where
  named : ∀ (method : String) (params : Fields), Sql.field params "relation" = .str relation.name →
    Sql.fetchRelation method params = .ok relation.name
  found : fetch platform server ctx relation.name = .ok relation
  scans : ∀ params : Fields, Sql.field params "relation" = .str relation.name →
    Sql.scan platform.host.printer (defaultScan platform server ctx) params =
      scanListed platform server ctx relation params
  writes : ∀ params : Fields, Sql.field params "relation" = .str relation.name →
    modify platform server ctx params = modifyListed platform server ctx relation params

theorem actsOn_iff {relation : Relation δ} :
    ActsOn platform server ctx relation ↔
      relation.name ≠ "" ∧ fetch platform server ctx relation.name = .ok relation := by
  constructor
  · intro h
    refine ⟨fun hempty => ?_, h.found⟩
    have hfield : Sql.field [("relation", .str relation.name)] "relation" =
        .str relation.name := rfl
    obtain ⟨error, herror⟩ := @fetchRelation_empty "sql/scan" _ (hempty ▸ hfield)
    have hnamed := h.named "sql/scan" _ hfield
    rw [hempty] at hnamed
    cases hnamed.symm.trans herror
  · rintro ⟨hne, hfound⟩
    exact ⟨fun _ _ hparams => fetchRelation_of_name hparams hne, hfound,
      fun _ => scan_of_fetch hne hfound, fun _ => modify_of_fetch hne hfound⟩

theorem fixed_name_ne_empty {name : String}
    (h : name ∈ reserved ∨ name ∈ toolNames platform server ctx) : name ≠ "" := by
  rcases h with hreserved | htool
  · have hnone : "" ∉ reserved := by decide
    exact fun hempty => hnone (hempty ▸ hreserved)
  · obtain ⟨tool, _, rfl⟩ := List.mem_map.mp htool
    intro hempty
    have hmark := toolMark_starts platform tool.name
    rw [hempty] at hmark
    exact absurd (List.prefix_nil.mp hmark) (by decide)

/-- The payload of `sql/schema` holds no name twice, and a scan or a write of a listed name is one
of the relation that is listed under it, just if the names are apart. -/
theorem reached_by_own_name (platform : Platform) (server : Server δ) (ctx : Ctx δ)
    (relations : List (Relation δ)) (hlisted : listed platform server ctx = some relations) :
    ((relations.map (·.name)).Nodup ∧
        ∀ relation ∈ relations, ActsOn platform server ctx relation) ↔
      NamesApart platform server ctx := by
  obtain ⟨tools, htools, rfl⟩ := Option.map_eq_some_iff.mp hlisted
  rw [listed_nodup htools]
  have hmem : ∀ entry ∈ server.datasets, entry.hidden = false →
      entry.wireName ∈ datasetNames server := fun entry hentry hvisible =>
    List.mem_map_of_mem (List.mem_filter.mpr ⟨hentry, by simp [hvisible]⟩)
  have hvisible : ∀ {entry : Registration δ},
      entry ∈ server.datasets → entry.hidden = false →
        datasetRelation entry ∈ datasetRelations server false := fun hentry hvisible =>
    List.mem_map_of_mem (List.mem_filter.mpr ⟨hentry, by simp [hvisible]⟩)
  constructor
  · rintro ⟨⟨htoolNames, hnames, hfree⟩, hacts⟩
    refine ⟨htoolNames, hnames, fun name hname => ⟨(hfree name hname).1, (hfree name hname).2, ?_⟩,
      fun entry hentry hhidden => ?_⟩
    · obtain ⟨entry, hentry, rfl⟩ := List.mem_map.mp hname
      obtain ⟨hentry, hhidden⟩ := List.mem_filter.mp hentry
      exact (actsOn_iff.mp (hacts _ (List.mem_append_right _
        (hvisible hentry (by simpa using hhidden))))).1
    · have hfound := (hacts _ (List.mem_append_right _ (hvisible hentry hhidden))).found
      rw [fetch_eq_ok htools] at hfound
      have hname := hfree _ (hmem entry hentry hhidden)
      exact (find_dataset htools hname.1 hname.2).symm.trans hfound
  · intro h
    have hfree : ∀ name ∈ datasetNames server,
        name ∉ reserved ∧ name ∉ toolNames platform server ctx :=
      fun name hname => ⟨(h.free name hname).1, (h.free name hname).2.1⟩
    refine ⟨⟨h.tools, h.datasets, hfree⟩,
      fun relation hrelation => actsOn_iff.mpr ?_⟩
    rw [fetch_eq_ok htools]
    rcases List.mem_append.mp hrelation with hfixed | hdataset
    · refine ⟨fixed_name_ne_empty ((mem_fixed_names htools).mp (List.mem_map_of_mem hfixed)), ?_⟩
      rw [List.find?_append, find_of_nodup ((fixed_names_nodup htools).mpr h.tools) hfixed]
      rfl
    · obtain ⟨entry, hentry, rfl⟩ := List.mem_map.mp hdataset
      obtain ⟨hentry, hhidden⟩ := List.mem_filter.mp hentry
      have hhidden : entry.hidden = false := by simpa using hhidden
      obtain ⟨hreserved, htool, hne⟩ := h.free _ (hmem entry hentry hhidden)
      exact ⟨hne, (find_dataset htools hreserved htool).trans (h.first entry hentry hhidden)⟩

/-! Servers with some tools and datasets. -/

def plainPlatform : Platform where
  host := Catalog.unaryHost
  downcase := List.map Char.toLower
  float _ := ""

/-- A tool that takes anything and answers with nothing. -/
def idleTool : Callable where
  accepts _ := true
  rejected _ := { content := [] }
  run _ := .ok { content := [] }

/-- A dataset that takes any row. -/
def openDataset (name : String) : Dataset Unit where
  infoName := name
  columns := [⟨"id", .text, none⟩]
  scan _ _ := .ok ([], .null)
  insert := some fun rows _ => .ok rows

def offering (tools : List String) (datasets : List (Registration δ)) : Server δ where
  catalog _ := .entries (tools.map fun name => ⟨{ name := name }, true⟩)
  resolve _ _ := .ok idleTool
  getPrompt _ _ _ := .error crashed
  readResource _ _ := .error crashed
  complete _ _ _ _ := .error crashed
  datasets := datasets

/-- A request without assigns. -/
def anyone : Ctx Unit := ⟨none, none, none, ()⟩

/-- The names that `sql/schema` lists after the eight derived ones. -/
def ownNames (server : Server Unit) : Option (List String) :=
  (listed plainPlatform server anyone).map fun relations => (relations.drop 8).map (·.name)

/-- What an insert of one empty row reaches. -/
def insertReaches (server : Server Unit) (name : String) : List Reached :=
  (modify plainPlatform server anyone
    [("relation", .str name), ("op", .str "insert"), ("rows", .arr [.obj []])]).2

/-- Names that are apart, two tools under one name, and a dataset under the name of a tool's
relation. -/
def apart : Server Unit := offering ["search", "fetch"] [{ dataset := openDataset "sessions" }]

/-- Two tools whose relations get one name. -/
def doubled : Server Unit := offering ["list-files", "list.files"] []

/-- A tool whose relation has the name of a dataset. -/
def shadowed : Server Unit := offering ["search"] [{ dataset := openDataset "tool_search" }]

/-- Two tools and a dataset are each reached by their name. -/
theorem apart_names_reached :
    NamesApart plainPlatform apart anyone ∧
      ∃ relations, listed plainPlatform apart anyone = some relations ∧
        (relations.map (·.name)).Nodup ∧
        ∀ relation ∈ relations, ActsOn plainPlatform apart anyone relation := by
  have hapart : NamesApart plainPlatform apart anyone := by
    refine ⟨by decide +kernel, by decide +kernel, by decide +kernel, ?_⟩
    intro entry hentry _
    obtain rfl := List.mem_singleton.mp hentry
    rfl
  have hlisted : (listed plainPlatform apart anyone).isSome := by decide +kernel
  obtain ⟨relations, hrelations⟩ := Option.isSome_iff_exists.mp hlisted
  exact ⟨hapart, relations, hrelations,
    (reached_by_own_name plainPlatform apart anyone relations hrelations).mpr hapart⟩

/-- The name is listed twice, and a write to it reaches the first of the two. -/
theorem names_shared :
    validDatasets doubled.datasets = true ∧
      ownNames doubled = some ["tool_list_files", "tool_list_files"] ∧
      insertReaches doubled "tool_list_files" = [.tool "list-files" []] ∧
      validDatasets shadowed.datasets = true ∧
      ownNames shadowed = some ["tool_search", "tool_search"] ∧
      insertReaches shadowed "tool_search" = [.tool "search" []] := by
  decide +kernel

end NoizuMcp.Relations
