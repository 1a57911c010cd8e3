import Mathlib.Data.List.Dedup
import Mathlib.Data.List.Sort
import NoizuMcp.Engine.Sessions

/-!
# Slices of the catalog of an engine

With `all_upstreams`, `engine_statements` makes the tables of the catalog once for every upstream
and once for the engine itself. A table shows the items whose names start with its upstream and a
dot, without these (`scoped_items`), the engine's own table those without a dot. The upstreams are
read off the names of the tools (`upstreams_from_tool_names`).

`in_one_slice_iff`: which items are in exactly one slice. A name that is no tool's may have a dot
without an upstream before it (`prompt_in_no_slice`).
-/

set_option autoImplicit false

namespace NoizuMcp.Pg.Slices

open Foundation

open Protocol (Json)

open Engine (after after_append)

def name? (item : Json) : Option String := (item.get "name").bind Json.asStr

/-- Neighbours that are equal are dropped: all of them, in a list that is sorted. -/
def upstreamsFromToolNames (names : List String) : List String :=
  ((names.filterMap fun name => (cutAt '.' name).map Prod.fst).insertionSort (· ≤ ·)).dedup

/-- The upstreams that the names of tools tell of. -/
def discoverUpstreams (tools : List Json) : List String :=
  upstreamsFromToolNames (tools.filterMap name?)

/-- `item["name"] = name`. -/
def rename (name : String) : Json → Json
  | .obj fields => .obj (fields.map fun field =>
      if field.1 = "name" then ("name", .str name) else field)
  | item => item

/-- An item in `scoped_items`. -/
def scopedItem (upstream : String) (item : Json) : Option Json :=
  if upstream = "" then
    if (name? item).all fun name => !name.toList.contains '.' then some item else none
  else (name? item).bind fun name =>
    (after (upstream ++ ".") name).map fun rest => rename rest item

/-- The items of one upstream, under their own names. -/
def scopedItems (upstream : String) (items : List Json) : List Json :=
  items.filterMap (scopedItem upstream)

/-- The `upstream` options of the tables that `engine_statements` makes of one of the catalog. -/
def slices (tools : List Json) : List String := discoverUpstreams tools ++ [""]

/-- The slice for an item by its name; there is none for a name that starts with a dot. -/
def home (item : Json) : Option String :=
  match (name? item).bind (cutAt '.') with
  | none => some ""
  | some (upstream, _) => if upstream = "" then none else some upstream

variable {tools : List Json} {item : Json} {upstream name rest : String}

theorem after_eq_some (h : after upstream name = some rest) : name = upstream ++ rest := by
  unfold after at h
  split_ifs at h with hstarts
  cases h
  apply String.toList_injective
  obtain ⟨later, hlater⟩ := List.isPrefixOf_iff_prefix.mp hstarts
  simp [← hlater]

theorem after_dot (hdot : '.' ∉ upstream.toList) :
    after (upstream ++ ".") name = some rest ↔ cutAt '.' name = some (upstream, rest) := by
  constructor
  · intro h
    rw [after_eq_some h]
    exact cutAt_append hdot rest
  · intro h
    rw [cutAt_eq_some h]
    exact after_append _ _

/-- A slice shows the items that are at home in it. -/
theorem isSome_scopedItem (item : Json) (hdot : '.' ∉ upstream.toList) :
    (scopedItem upstream item).isSome = true ↔ home item = some upstream := by
  unfold scopedItem home
  cases hname : name? item with
  | none => by_cases h : upstream = "" <;> simp [h, eq_comm]
  | some name =>
    by_cases hown : upstream = ""
    · -- the engine's own slice has the names without a dot
      cases hcut : cutAt '.' name with
      | none => simp [hown, hcut, cutAt_eq_none.mp hcut]
      | some parts =>
        have hin : '.' ∈ name.toList := by
          by_contra hnone
          cases hcut.symm.trans (cutAt_eq_none.mpr hnone)
        by_cases hfirst : parts.1 = "" <;> simp [hown, hcut, hin, hfirst]
    · rw [if_neg hown, Option.bind_some, Option.isSome_map, Option.isSome_iff_exists]
      simp only [after_dot hdot]
      cases hcut : cutAt '.' name with
      | none => simp [hcut, Ne.symm hown]
      | some parts =>
        obtain ⟨first, rest⟩ := parts
        by_cases hfirst : first = "" <;> simp [hcut, hfirst, Ne.symm hown]

theorem not_mem_upstream (h : upstream ∈ slices tools) : '.' ∉ upstream.toList := by
  rcases List.mem_append.mp h with h | h
  · rw [discoverUpstreams, upstreamsFromToolNames, List.mem_dedup, List.mem_insertionSort] at h
    obtain ⟨name, -, h⟩ := List.mem_filterMap.mp h
    obtain ⟨parts, hcut, rfl⟩ := Option.map_eq_some_iff.mp h
    exact not_mem_cutAt hcut
  · simp [List.mem_singleton.mp h]

theorem name?_rename (h : name? item = some name) : name? (rename rest item) = some rest := by
  cases item with
  | obj fields =>
    induction fields with
    | nil => cases h
    | cons field fields ih =>
      obtain ⟨key, value⟩ := field
      by_cases hkey : key = "name"
      · simp [name?, rename, Json.get, Json.asStr, hkey]
      · have htest : ("name" == key) = false := beq_eq_false_iff_ne.mpr (Ne.symm hkey)
        simp only [name?, rename, Json.get, List.map_cons, if_neg hkey, List.lookup_cons, htest] at *
        exact ih h
  | null | bool | int | float | str | arr => cases h

/-- An item is in exactly one slice iff its name gives it a home, an upstream or the engine, if no
tool starts with a dot; and the slice of an upstream leaves the upstream and the dot out. -/
theorem in_one_slice_iff (tools : List Json) (item : Json) :
    ((slices tools).countP (fun upstream => (scopedItem upstream item).isSome) = 1 ↔
      ∃ upstream, home item = some upstream ∧
        if upstream = "" then "" ∉ discoverUpstreams tools
        else upstream ∈ discoverUpstreams tools) ∧
    ∀ upstream shown, upstream ≠ "" → scopedItem upstream item = some shown →
      ∃ rest, name? shown = some rest ∧ name? item = some (upstream ++ "." ++ rest) := by
  constructor
  · have hvisible := fun upstream (h : upstream ∈ slices tools) =>
      isSome_scopedItem item (not_mem_upstream h)
    cases hhome : home item with
    | none =>
      rw [hhome] at hvisible
      have hzero := List.countP_eq_zero.mpr fun u hu h => by cases (hvisible u hu).mp h
      simp [hzero]
    | some upstream =>
      -- only the home shows the item, so what counts is how often it is among the slices
      have hcount : (slices tools).countP (fun upstream => (scopedItem upstream item).isSome) =
          (slices tools).count upstream :=
        List.countP_congr fun other h => by
          rw [hvisible other h, hhome, Option.some_inj, beq_iff_eq, eq_comm]
      rw [hcount, slices, List.count_append]
      by_cases hown : upstream = ""
      · simp [hown, List.count_eq_zero]
      · have hnodup : (discoverUpstreams tools).Nodup := List.nodup_dedup _
        simp [hown, Ne.symm hown, hnodup.count]
  · intro upstream shown hne h
    rw [scopedItem, if_neg hne] at h
    obtain ⟨name, hname, h⟩ := Option.bind_eq_some_iff.mp h
    obtain ⟨rest, hrest, rfl⟩ := Option.map_eq_some_iff.mp h
    exact ⟨rest, name?_rename hname, hname.trans (congrArg some (after_eq_some hrest))⟩

def named (name : String) : Json := .obj [("name", .str name)]

/-- A prompt with a dot in its name is in no slice; an item of the engine is in two, if a tool
starts with a dot. -/
theorem prompt_in_no_slice :
    (slices [named "crm.find"]).flatMap (scopedItems · [named "notes.md"]) = [] ∧
    (slices [named ".find"]).flatMap (scopedItems · [named "ping"]) =
      [named "ping", named "ping"] := by
  decide +kernel

end NoizuMcp.Pg.Slices
