import Mathlib.Data.List.Basic

/-!
# Words in a line

A list of words written as one line with single spaces between them, and read
back. A text can also be cut once, at the first occurrence of a character (`cutAt`).
-/

set_option autoImplicit false

namespace NoizuMcp.Foundation

/-- Split at spaces, dropping empty parts. `word` is the part being read. -/
def splitSpaces : List Char → List Char → List String
  | word, [] => if word.isEmpty then [] else [String.ofList word]
  | word, ' ' :: rest =>
    if word.isEmpty then splitSpaces [] rest else String.ofList word :: splitSpaces [] rest
  | word, c :: rest => splitSpaces (word ++ [c]) rest

/-- The words of a line. -/
def words (line : String) : List String := splitSpaces [] line.toList

/-- The line of some words. -/
def joinWords (ws : List String) : String := " ".intercalate ws

/-! ## Cutting once -/

/-- What stands before and after the first occurrence of a character. -/
def cutChars (c : Char) : List Char → Option (List Char × List Char)
  | [] => none
  | d :: rest =>
    if d = c then some ([], rest) else (cutChars c rest).map fun parts => (d :: parts.1, parts.2)

/-- Cut a text at the first occurrence of a character. -/
def cutAt (c : Char) (text : String) : Option (String × String) :=
  (cutChars c text.toList).map fun parts => (String.ofList parts.1, String.ofList parts.2)

variable {c : Char}

theorem cutChars_append {first : List Char} (h : c ∉ first) (rest : List Char) :
    cutChars c (first ++ c :: rest) = some (first, rest) := by
  induction first with
  | nil => simp [cutChars]
  | cons d _ ih =>
    rw [List.mem_cons, not_or] at h
    rw [List.cons_append, cutChars, if_neg (Ne.symm h.1), ih h.2]
    rfl

theorem cutAt_append {first : String} (h : c ∉ first.toList) (rest : String) :
    cutAt c (first ++ String.singleton c ++ rest) = some (first, rest) := by
  have hchars : (first ++ String.singleton c ++ rest).toList = first.toList ++ c :: rest.toList :=
    by
    simp
  rw [cutAt, hchars, cutChars_append h]
  simp

theorem cutChars_eq_some {chars first rest : List Char}
    (h : cutChars c chars = some (first, rest)) :
    chars = first ++ c :: rest := by
  induction chars generalizing first with
  | nil => cases h
  | cons d _ ih =>
    rw [cutChars] at h
    split at h
    case isTrue heq =>
      cases h
      rw [heq, List.nil_append]
    case isFalse =>
      obtain ⟨⟨before, after⟩, hcut, heq⟩ := Option.map_eq_some_iff.mp h
      cases heq
      rw [ih hcut, List.cons_append]

/-- A text is what it was cut into. -/
theorem cutAt_eq_some {text first rest : String} (h : cutAt c text = some (first, rest)) :
    text = first ++ String.singleton c ++ rest := by
  obtain ⟨⟨before, after⟩, hcut, heq⟩ := Option.map_eq_some_iff.mp h
  cases heq
  apply String.toList_injective
  simp [cutChars_eq_some hcut]

theorem cutChars_eq_none {chars : List Char} : cutChars c chars = none ↔ c ∉ chars := by
  induction chars with
  | nil => simp [cutChars]
  | cons d _ ih => by_cases h : d = c <;> simp [cutChars, h, ih, Ne.symm]

theorem cutAt_eq_none {text : String} : cutAt c text = none ↔ c ∉ text.toList :=
  Option.map_eq_none_iff.trans cutChars_eq_none

theorem not_mem_cutChars {chars : List Char} {parts : List Char × List Char}
    (h : cutChars c chars = some parts) : c ∉ parts.1 := by
  induction chars generalizing parts with
  | nil => cases h
  | cons d _ ih =>
    rw [cutChars] at h
    split_ifs at h with hd
    · cases h
      exact List.not_mem_nil
    · obtain ⟨later, hlater, rfl⟩ := Option.map_eq_some_iff.mp h
      simp [ih hlater, Ne.symm hd]

theorem not_mem_cutAt {text : String} {parts : String × String} (h : cutAt c text = some parts) :
    c ∉ parts.1.toList := by
  obtain ⟨chars, hcut, rfl⟩ := Option.map_eq_some_iff.mp h
  simpa using not_mem_cutChars hcut

end NoizuMcp.Foundation
