import Mathlib.Data.List.Basic

/-!
# Paths with slashes

A path in its plain form is a slash before each component, or one slash alone
(`render`). Any text has parts, the components that are left when it is cut at slashes and
empty pieces are dropped (`parts`); the parts of a plain path are its components.
-/

set_option autoImplicit false

namespace NoizuMcp.Foundation.SlashPaths

/-- The pieces between slashes that are not empty. -/
def parts (path : List Char) : List (List Char) := (path.splitOn '/').filter (· ≠ [])

/-- A text that is one part. -/
def Component (c : List Char) : Prop := c ≠ [] ∧ '/' ∉ c

/-- The components, a slash before each. -/
def below (components : List (List Char)) : List Char := components.flatMap ('/' :: ·)

/-- The plain path with these components. -/
def render : List (List Char) → List Char
  | [] => ['/']
  | c :: rest => below (c :: rest)

/-- A name below a path. -/
def join (path name : List Char) : List Char :=
  if path = ['/'] then '/' :: name else path ++ '/' :: name

/-- A text without the slashes at its end. -/
def trimTrailing (path : List Char) : List Char := (path.reverse.dropWhile (· = '/')).reverse

variable {c name path : List Char} {components : List (List Char)}

theorem below_cons (c : List Char) (components : List (List Char)) :
    below (c :: components) = '/' :: c ++ below components := rfl

theorem render_eq_below (h : components ≠ []) : render components = below components := by
  cases components with
  | nil => exact absurd rfl h
  | cons => rfl

/-! ## Parts -/

theorem parts_slash (path : List Char) : parts ('/' :: path) = parts path := by
  rw [parts, parts, ← List.nil_append ('/' :: path), List.splitOn_append_cons_self_of_not_mem
    List.not_mem_nil]
  simp

theorem parts_component (h : Component c) : parts c = [c] := by
  rw [parts, List.splitOn_eq_singleton h.2]
  simp [h.1]

theorem parts_append_slash (h : Component c) (path : List Char) :
    parts (c ++ '/' :: path) = c :: parts path := by
  rw [parts, parts, List.splitOn_append_cons_self_of_not_mem h.2]
  simp [h.1]

theorem parts_below (h : ∀ c ∈ components, Component c) :
    parts (below components) = components := by
  induction components with
  | nil => rfl
  | cons c rest ih =>
    have hc := h c List.mem_cons_self
    have hrest := ih fun d hd => h d (List.mem_cons_of_mem c hd)
    rw [below_cons, List.cons_append, parts_slash]
    cases rest with
    | nil =>
      change parts (c ++ []) = [c]
      rw [List.append_nil]
      exact parts_component hc
    | cons =>
      rw [below_cons, List.cons_append] at hrest ⊢
      rw [parts_append_slash hc, ← parts_slash, hrest]

/-- The parts of a plain path are its components. -/
theorem parts_render (h : ∀ c ∈ components, Component c) :
    parts (render components) = components := by
  cases components with
  | nil => rfl
  | cons => exact parts_below h

theorem not_mem_of_mem_splitOn {piece : List Char} (h : piece ∈ path.splitOn '/') :
    '/' ∉ piece := by
  induction path generalizing piece with
  | nil =>
    rw [List.splitOn_nil, List.mem_singleton] at h
    exact h ▸ List.not_mem_nil
  | cons x rest ih =>
    rw [List.splitOn_cons_eq_if_modifyHead] at h
    split at h
    · rcases List.mem_cons.mp h with rfl | hrest
      · exact List.not_mem_nil
      · exact ih hrest
    · rename_i hx
      cases hsplit : rest.splitOn '/' with
      | nil => exact absurd hsplit (List.splitOn_ne_nil _ _)
      | cons first =>
        rw [hsplit] at h
        rcases List.mem_cons.mp h with rfl | hother
        · rw [List.mem_cons, not_or]
          refine ⟨fun heq => hx (beq_iff_eq.mpr heq.symm), ih (hsplit ▸ List.mem_cons_self)⟩
        · exact ih (hsplit ▸ List.mem_cons_of_mem first hother)

/-- Every part is a component. -/
theorem component_of_mem_parts (h : c ∈ parts path) : Component c := by
  obtain ⟨hsplit, hne⟩ := List.mem_filter.mp h
  exact ⟨of_decide_eq_true hne, not_mem_of_mem_splitOn hsplit⟩

/-! ## Names below a path -/

theorem join_render (h : ∀ c ∈ components, Component c) (name : List Char) :
    join (render components) name = render (components ++ [name]) := by
  cases components with
  | nil => simp [join, render, below]
  | cons c rest =>
    have hroot : render (c :: rest) ≠ ['/'] := by
      intro heq
      have hnil := congrArg parts heq
      rw [parts_render h] at hnil
      cases hnil
    rw [join, if_neg hroot, render_eq_below (List.cons_ne_nil _ _), List.cons_append,
      render_eq_below (List.cons_ne_nil _ _), below, below]
    simp

theorem trimTrailing_append (h : Component c) (path : List Char) :
    trimTrailing (path ++ c) = path ++ c := by
  cases hreverse : c.reverse with
  | nil => exact absurd (List.reverse_eq_nil_iff.mp hreverse) h.1
  | cons x xs =>
    have hx : x ∈ c := List.mem_reverse.mp (hreverse ▸ List.mem_cons_self)
    have hne : x ≠ '/' := fun heq => h.2 (heq ▸ hx)
    have hstop : (x :: xs ++ path.reverse).dropWhile (· = '/') = x :: xs ++ path.reverse := by
      rw [List.cons_append, List.dropWhile_cons, if_neg (by simpa using hne)]
    rw [trimTrailing, List.reverse_append, hreverse, hstop, ← hreverse, List.reverse_append,
      List.reverse_reverse, List.reverse_reverse]

end NoizuMcp.Foundation.SlashPaths
