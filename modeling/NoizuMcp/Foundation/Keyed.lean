import Mathlib.Data.List.Basic
import Mathlib.Data.List.Nodup
import Mathlib.Logic.Function.Basic

/-!
# Tables whose rows hold their key

A finite table of rows with a primary key that is a column of the row. Two rows never
share a key, and a row that is found under a key has it (`lookup_key`), by construction.
Writing a row replaces the row of its key.
-/

set_option autoImplicit false

namespace NoizuMcp.Foundation

universe u v

/-- Rows with distinct keys. -/
structure Keyed (κ : Type u) (α : Type v) (key : α → κ) where
  rows : List α
  nodup : (rows.map key).Nodup

namespace Keyed

variable {κ : Type u} {α : Type v} {key : α → κ}

instance : EmptyCollection (Keyed κ α key) := ⟨⟨[], List.nodup_nil⟩⟩

/-- Change rows in place; none changes its key. -/
def mapRows (f : α → α) (hf : ∀ a, key (f a) = key a) (t : Keyed κ α key) : Keyed κ α key where
  rows := t.rows.map f
  nodup := by
    rw [List.map_map, show key ∘ f = key from funext hf]
    exact t.nodup

/-- Keep the rows with a property. -/
def filterRows (p : α → Bool) (t : Keyed κ α key) : Keyed κ α key where
  rows := t.rows.filter p
  nodup := t.nodup.sublist (List.filter_sublist.map key)

variable [DecidableEq κ] {t : Keyed κ α key} {k : κ} {a b : α}

/-- The row with a key. -/
def lookup (t : Keyed κ α key) (k : κ) : Option α := t.rows.find? fun a => key a = k

/-- Write a row in place of the one with its key. -/
def insert (t : Keyed κ α key) (a : α) : Keyed κ α key where
  rows := a :: t.rows.filter fun b => key b ≠ key a
  nodup := by
    rw [List.map_cons, List.nodup_cons]
    refine ⟨?_, t.nodup.sublist (List.filter_sublist.map key)⟩
    intro hmem
    obtain ⟨b, hb, heq⟩ := List.mem_map.mp hmem
    exact of_decide_eq_true (List.mem_filter.mp hb).2 heq

theorem lookup_key (h : t.lookup k = some a) : key a = k := by
  have hfound := List.find?_some (p := fun a => decide (key a = k)) h
  exact of_decide_eq_true hfound

theorem mem_rows : a ∈ t.rows ↔ t.lookup (key a) = some a := by
  constructor
  · intro h
    obtain ⟨b, hb⟩ : ∃ b, t.lookup (key a) = some b := by
      cases hlookup : t.lookup (key a) with
      | some b => exact ⟨b, rfl⟩
      | none => exact absurd (decide_eq_true rfl) (List.find?_eq_none.mp hlookup a h)
    rw [hb, List.inj_on_of_nodup_map t.nodup (List.mem_of_find?_eq_some hb) h (lookup_key hb)]
  · intro h
    exact List.mem_of_find?_eq_some h

theorem mem_of_lookup (h : t.lookup k = some a) : a ∈ t.rows := List.mem_of_find?_eq_some h

@[simp] theorem lookup_empty : (∅ : Keyed κ α key).lookup k = none := rfl

theorem lookup_insert_self : (t.insert a).lookup (key a) = some a := by
  simp [lookup, insert]

theorem lookup_insert_ne (h : k ≠ key a) : (t.insert a).lookup k = t.lookup k := by
  unfold lookup insert
  rw [List.find?_cons_of_neg (by simpa using h.symm), List.find?_filter]
  congr 1
  funext b
  by_cases hb : key b = k
  · simp [hb, h]
  · simp [hb]

theorem lookup_insert : (t.insert a).lookup k = if k = key a then some a else t.lookup k := by
  split
  case isTrue h =>
    rw [h]
    exact lookup_insert_self
  case isFalse h => exact lookup_insert_ne h

@[simp] theorem lookup_mapRows {f : α → α} {hf : ∀ a, key (f a) = key a} :
    (mapRows f hf t).lookup k = (t.lookup k).map f := by
  unfold lookup mapRows
  rw [List.find?_map]
  congr 2
  funext a
  simp [hf]

variable {p : α → Bool}

theorem lookup_of_filterRows (h : (t.filterRows p).lookup k = some a) : t.lookup k = some a := by
  have hkey : key a = k := lookup_key h
  have hmem : a ∈ t.rows := (List.mem_filter.mp (mem_of_lookup h)).1
  rw [← hkey]
  exact mem_rows.mp hmem

theorem lookup_filterRows : (t.filterRows p).lookup k = (t.lookup k).filter p := by
  refine Option.ext fun a => ?_
  rw [Option.filter_eq_some_iff]
  constructor
  · intro h
    exact ⟨lookup_of_filterRows h, (List.mem_filter.mp (mem_of_lookup h)).2⟩
  · rintro ⟨h, hp⟩
    have hmem : a ∈ (t.filterRows p).rows := List.mem_filter.mpr ⟨mem_of_lookup h, hp⟩
    rw [← lookup_key h]
    exact mem_rows.mp hmem

/-! ## Parts -/

section Part

universe w

variable {γ : Type w} [DecidableEq γ] {group : α → γ} {g : γ}

/-- The rows of one group, by their keys. -/
def part (t : Keyed κ α key) (group : α → γ) (g : γ) (k : κ) : Option α :=
  (t.lookup k).filter fun a => group a = g

theorem part_eq_some : t.part group g k = some a ↔ t.lookup k = some a ∧ group a = g := by
  simp [part]

theorem part_eq_none (h : t.lookup k = none) : t.part group g k = none := by
  rw [part, h, Option.filter_none]

theorem part_key (h : t.part group g k = some a) : key a = k := lookup_key (part_eq_some.mp h).1

/-- A row that replaces one of its own group changes that group. -/
theorem part_insert (hgroup : ∀ b, t.lookup (key a) = some b → group b = group a) :
    (t.insert a).part group g =
      if group a = g then Function.update (t.part group g) (key a) (some a)
      else t.part group g := by
  funext k
  by_cases hk : k = key a
  · subst hk
    unfold part
    rw [lookup_insert_self]
    by_cases hg : group a = g
    · simp [hg]
    · have hnone : (t.lookup (key a)).filter (fun b => group b = g) = none := by
        rw [Option.filter_eq_none_iff]
        intro b hb
        simpa [hgroup b hb] using hg
      simp [hg, hnone]
  · unfold part
    rw [lookup_insert_ne hk]
    split
    · rw [Function.update_of_ne hk]
    · rfl

theorem part_mapRows {f : α → α} (hf : ∀ a, key (f a) = key a)
    (hgroup : ∀ a, group (f a) = group a) :
    (mapRows f hf t).part group g = fun k => (t.part group g k).map f := by
  funext k
  unfold part
  rw [lookup_mapRows]
  cases t.lookup k with
  | none => rfl
  | some a =>
    by_cases hg : group a = g
    · simp [Option.filter, hgroup]
    · simp [Option.filter, hgroup]

end Part

/-- A search over the rows, with what it finds. -/
theorem find?_rows (h : t.rows.find? p = some a) : t.lookup (key a) = some a ∧ p a = true :=
  ⟨mem_rows.mp (List.mem_of_find?_eq_some h), List.find?_some h⟩

theorem find?_rows_eq_none : t.rows.find? p = none ↔ ∀ k a, t.lookup k = some a → p a = false := by
  rw [List.find?_eq_none]
  constructor
  · intro h k a hlookup
    exact eq_false_of_ne_true (h a (mem_of_lookup hlookup))
  · intro h a ha
    rw [h (key a) a (mem_rows.mp ha)]
    exact Bool.false_ne_true

end Keyed

end NoizuMcp.Foundation
