import Mathlib.Data.List.Basic

/-!
# Splitting a text that arrives in chunks

A text is cut at separators, and what stands after the last one is kept until more of the
text arrives. A separator is given by its length at the head of a text. If what was found
at the head stays found when the text grows, and if growing it completes a separator at
the head only where none was inside (`stable`, `late`), then cutting chunk by chunk is
cutting the whole text (`Separator.feed_eq`).
-/

set_option autoImplicit false

namespace NoizuMcp.Foundation

variable {α : Type}

/-- A separator by its length at the head of a text, 0 if there is none. -/
structure Separator (α : Type) where
  length : List α → Nat
  length_le : ∀ xs, length xs ≤ xs.length
  stable : ∀ xs ys, length xs ≠ 0 → length (xs ++ ys) = length xs
  late : ∀ xs ys, length xs = 0 → length (xs ++ ys) ≠ 0 → ∀ zs, zs <:+ xs → length zs = 0

namespace Separator

variable (sep : Separator α)

/-- The parts of a text of which the first `n` characters are skipped. -/
def pieces : Nat → List α → List (List α)
  | _, [] => [[]]
  | n + 1, _ :: xs => pieces n xs
  | 0, x :: xs =>
    match sep.length (x :: xs) with
    | 0 => (pieces 0 xs).modifyHead (x :: ·)
    | n + 1 => [] :: pieces n xs

/-- The parts of a text between the separators. -/
def split (xs : List α) : List (List α) := sep.pieces 0 xs

/-- The parts that are complete. -/
def complete (xs : List α) : List (List α) := (sep.split xs).dropLast

/-- What is left after the last separator. -/
def rest (xs : List α) : List α := (sep.split xs).getLastD []

/-- Cut chunk by chunk: the parts, and what is left of the text so far. -/
def feed : List α → List (List α) → List (List α) × List α
  | buffer, [] => ([], buffer)
  | buffer, chunk :: chunks =>
    let next := feed (sep.rest (buffer ++ chunk)) chunks
    (sep.complete (buffer ++ chunk) ++ next.1, next.2)

variable {sep} {x : α} {xs ys part : List α}

theorem pieces_eq : ∀ {n : Nat} {xs : List α}, sep.pieces n xs = sep.split (xs.drop n)
  | 0, _ => rfl
  | n + 1, [] => by
    unfold split pieces
    simp
  | n + 1, x :: xs => by
    rw [pieces]
    exact pieces_eq

@[simp] theorem split_nil : sep.split [] = [[]] := rfl

theorem split_cons (h : sep.length (x :: xs) = 0) :
    sep.split (x :: xs) = (sep.split xs).modifyHead (x :: ·) := by
  unfold split
  rw [pieces, h]

theorem split_separator (h : sep.length xs ≠ 0) :
    sep.split xs = [] :: sep.split (xs.drop (sep.length xs)) := by
  cases xs with
  | nil =>
    have hle := sep.length_le []
    exact absurd (Nat.le_zero.mp hle) h
  | cons =>
    obtain ⟨n, hn⟩ := Nat.exists_eq_succ_of_ne_zero h
    rw [hn, split, pieces, hn]
    exact congrArg ([] :: ·) pieces_eq

variable (sep) in

theorem split_ne_nil (xs : List α) : sep.split xs ≠ [] := by
  cases xs with
  | nil => exact List.cons_ne_nil _ _
  | cons x xs =>
    by_cases h : sep.length (x :: xs) = 0
    · rw [split_cons h]
      have hne := split_ne_nil xs
      cases hsplit : sep.split xs with
      | nil => exact absurd hsplit hne
      | cons => exact List.cons_ne_nil _ _
    · rw [split_separator h]
      exact List.cons_ne_nil _ _

theorem complete_append_rest (xs : List α) : sep.complete xs ++ [sep.rest xs] = sep.split xs := by
  unfold complete rest
  rw [List.getLastD_eq_getLast?, List.getLast?_eq_some_getLast (sep.split_ne_nil xs)]
  exact List.dropLast_append_getLast (sep.split_ne_nil xs)

/-- A text with one part is that part. -/
theorem eq_of_split (h : sep.split xs = [part]) : part = xs := by
  induction xs generalizing part with
  | nil => exact (List.singleton_inj.mp h).symm
  | cons x xs ih =>
    by_cases hsep : sep.length (x :: xs) = 0
    · rw [split_cons hsep] at h
      cases hsplit : sep.split xs with
      | nil => exact absurd hsplit (sep.split_ne_nil xs)
      | cons =>
        rw [hsplit] at h
        obtain ⟨rfl, rfl⟩ := List.cons.inj h
        rw [ih hsplit]
    · rw [split_separator hsep] at h
      exact absurd (List.cons.inj h).2 (sep.split_ne_nil _)

/-- A text without a separator has one part. -/
theorem split_of_none (h : ∀ zs, zs <:+ xs → sep.length zs = 0) : sep.split xs = [xs] := by
  induction xs with
  | nil => rfl
  | cons x xs ih =>
    rw [split_cons (h _ List.suffix_rfl),
      ih fun zs hzs => h zs (hzs.trans (List.suffix_cons x xs))]
    rfl

variable (sep) in

/-- More text changes only the part after the last separator. -/
theorem split_append (xs ys : List α) :
    sep.split (xs ++ ys) = sep.complete xs ++ sep.split (sep.rest xs ++ ys) := by
  unfold complete rest
  induction hn : xs.length using Nat.strongRecOn generalizing xs with
  | _ n ih =>
    subst hn
    cases xs with
    | nil => rfl
    | cons x xs =>
      by_cases hsep : sep.length (x :: xs) = 0
      · by_cases hlate : sep.length (x :: xs ++ ys) = 0
        · -- no separator here: the text goes on with the part that follows
          have hrest := ih xs.length (Nat.lt_succ_self _) xs rfl
          rw [List.cons_append] at hlate ⊢
          rw [split_cons hlate, hrest, split_cons hsep]
          cases hsplit : sep.split xs with
          | nil => exact absurd hsplit (sep.split_ne_nil xs)
          | cons _ parts =>
            cases parts with
            | nil =>
              -- nothing is complete yet, so the whole text is kept
              rw [eq_of_split hsplit]
              exact (split_cons hlate).symm
            | cons => rfl
        · rw [split_of_none (sep.late _ _ hsep hlate)]
          rfl
      · have hle := sep.length_le (x :: xs)
        have hlater := sep.stable (x :: xs) ys hsep
        have hshort : ((x :: xs).drop (sep.length (x :: xs))).length < (x :: xs).length := by
          rw [List.length_drop]
          omega
        have hrest := ih _ hshort ((x :: xs).drop (sep.length (x :: xs))) rfl
        have hne := sep.split_ne_nil ((x :: xs).drop (sep.length (x :: xs)))
        rw [split_separator (hlater ▸ hsep), hlater, List.drop_append_of_le_length hle, hrest,
          split_separator hsep]
        cases hsplit : sep.split ((x :: xs).drop (sep.length (x :: xs))) with
        | nil => exact absurd hsplit hne
        | cons => rfl

theorem split_rest (xs : List α) : sep.split (sep.rest xs) = [sep.rest xs] := by
  have hsplit := sep.split_append xs []
  rw [List.append_nil, List.append_nil, ← complete_append_rest xs] at hsplit
  exact (List.append_cancel_left hsplit).symm

/-- Cutting chunk by chunk is cutting the whole text. -/
theorem feed_eq {buffer : List α} (h : sep.split buffer = [buffer]) (chunks : List (List α)) :
    (sep.feed buffer chunks).1 ++ [(sep.feed buffer chunks).2] =
      sep.split (buffer ++ chunks.flatten) := by
  induction chunks generalizing buffer with
  | nil =>
    rw [List.flatten_nil, List.append_nil, h]
    rfl
  | cons _ _ ih =>
    rw [List.flatten_cons, ← List.append_assoc, split_append, ← ih (split_rest _)]
    exact List.append_assoc _ _ _

end Separator

end NoizuMcp.Foundation
