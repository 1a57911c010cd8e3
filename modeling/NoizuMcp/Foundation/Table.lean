import Mathlib.Data.List.AList

/-!
# Keyed tables

A finite table with one row per key, over Mathlib's `AList`. Reading, inserting
and erasing rows are Mathlib's; this file adds the bulk rewrite of rows that a
store performs when it revokes or expires many of them at once, with or without
dropping some of them, and the `lookup` equations in the `if` form that case
analysis on keys wants.
-/

set_option autoImplicit false

namespace NoizuMcp.Foundation

universe u v

/-- A finite table of rows `α` with at most one row per key `κ`. -/
abbrev Table (κ : Type u) (α : Type v) := AList fun _ : κ => α

namespace Table

variable {κ : Type u} {α : Type v}

/-- Rewrite every row in place; keys and their order are unchanged. -/
def mapRows (f : α → α) (t : Table κ α) : Table κ α where
  entries := t.entries.map fun row => ⟨row.1, f row.2⟩
  nodupKeys := by
    have hkeys : (t.entries.map fun row => (⟨row.1, f row.2⟩ : Sigma fun _ : κ => α)).keys
        = t.entries.keys := by simp [List.keys, Function.comp_def]
    unfold List.NodupKeys
    rw [hkeys]
    exact t.nodupKeys

/-- The rows of a table, in table order. -/
def rows (t : Table κ α) : List α := t.entries.map fun row => row.2

variable [DecidableEq κ]

theorem lookup_insert_ite (t : Table κ α) (k k' : κ) (a : α) :
    (t.insert k a).lookup k' = if k' = k then some a else t.lookup k' := by
  by_cases h : k' = k
  · subst h
    simp
  · rw [if_neg h]
    exact AList.lookup_insert_ne h

theorem lookup_erase_ite (t : Table κ α) (k k' : κ) :
    (t.erase k).lookup k' = if k' = k then none else t.lookup k' := by
  by_cases h : k' = k
  · subst h
    simp
  · rw [if_neg h]
    exact AList.lookup_erase_ne h

@[simp] theorem lookup_mapRows (f : α → α) (t : Table κ α) (k : κ) :
    (mapRows f t).lookup k = (t.lookup k).map f := by
  obtain ⟨entries, nodup⟩ := t
  simp only [mapRows, AList.lookup]
  clear nodup
  induction entries with
  | nil => rfl
  | cons row _ ih =>
    obtain ⟨k', a⟩ := row
    by_cases h : k' = k
    · subst h
      simp
    · rw [List.map_cons, List.dlookup_cons_ne _ _ (Ne.symm h),
        List.dlookup_cons_ne _ _ (Ne.symm h), ih]

theorem mem_rows {t : Table κ α} {a : α} : a ∈ t.rows ↔ ∃ k, t.lookup k = some a := by
  constructor
  · intro h
    obtain ⟨⟨k, b⟩, hmem, rfl⟩ := List.mem_map.mp h
    exact ⟨k, AList.mem_lookup_iff.mpr hmem⟩
  · rintro ⟨k, h⟩
    exact List.mem_map.mpr ⟨⟨k, a⟩, AList.mem_lookup_iff.mp h, rfl⟩

end Table

end NoizuMcp.Foundation
