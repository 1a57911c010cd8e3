import Mathlib.Data.List.Induction
import Mathlib.Data.List.TakeWhile

/-!
# Wildcards over a separator

A pattern is a list of wildcards and plain letters. Its meaning is declarative: a text
matches if it can be cut into consecutive pieces, one for each token (`Cut`). A segment
wildcard takes a run without the separator, a deep wildcard any number of runs that each
follow a separator, and an open wildcard anything.

A cut is whole if every run in it goes on to the end of its segment (`WholeCut`). Whole
cuts can be found without going back over a run, by one equation for each kind of token
(`wholeCut_segment`, `wholeCut_deep` and so on). A pattern in which nothing but a separator
can follow a run has a whole cut of every text it can cut at all (`wholeCut_of_aligned`).
-/

set_option autoImplicit false

namespace NoizuMcp.Foundation.Globs

universe u

variable {α : Type u}

/-- One token of a pattern. -/
inductive Wild (α : Type u) where
  | one (letter : α)
  | segment
  | any
  | deep
  deriving DecidableEq

/-- The token takes runs of letters that end with a segment or inside it. -/
def Wild.runs : Wild α → Bool
  | .segment | .deep => true
  | _ => false

/-- A run: some letters, none of them the separator. -/
def Plain (sep : α) (text : List α) : Prop := text ≠ [] ∧ sep ∉ text

/-- A text a token can take. -/
def Takes (sep : α) : Wild α → List α → Prop
  | .one letter, text => text = [letter]
  | .segment, text => Plain sep text
  | .any, _ => True
  | .deep, text =>
    ∃ groups : List (List α), (∀ group ∈ groups, Plain sep group) ∧
      text = groups.flatMap (sep :: ·)

/-- The text can be cut into consecutive pieces, one for each token. -/
def Cut (sep : α) (pattern : List (Wild α)) (text : List α) : Prop :=
  ∃ pieces : List (List α), List.Forall₂ (Takes sep) pattern pieces ∧ text = pieces.flatten

/-- A segment ends before the text. -/
def Edge (sep : α) (text : List α) : Prop := ∀ letter ∈ text.head?, letter = sep

/-- Every run that the tokens take goes on to the end of its segment. -/
def Whole (sep : α) : List (Wild α) → List (List α) → Prop
  | token :: pattern, piece :: pieces =>
    (token.runs = true → piece ≠ [] → Edge sep pieces.flatten) ∧ Whole sep pattern pieces
  | _, _ => True

/-- The text can be cut so that every run is the rest of its segment. -/
def WholeCut (sep : α) (pattern : List (Wild α)) (text : List α) : Prop :=
  ∃ pieces : List (List α), List.Forall₂ (Takes sep) pattern pieces ∧ text = pieces.flatten ∧
    Whole sep pattern pieces

variable {sep : α} {pattern : List (Wild α)} {token : Wild α} {text rest group : List α}

/-! ## Cuts token by token -/

theorem WholeCut.cut (h : WholeCut sep pattern text) : Cut sep pattern text := by
  obtain ⟨pieces, htakes, htext, _⟩ := h
  exact ⟨pieces, htakes, htext⟩

@[simp] theorem cut_nil : Cut sep [] text ↔ text = [] := by
  constructor
  · rintro ⟨pieces, htakes, rfl⟩
    cases htakes
    rfl
  · rintro rfl
    exact ⟨[], .nil, rfl⟩

theorem cut_cons :
    Cut sep (token :: pattern) text ↔
      ∃ piece rest, text = piece ++ rest ∧ Takes sep token piece ∧ Cut sep pattern rest := by
  constructor
  · rintro ⟨_, htakes, rfl⟩
    cases htakes with
    | cons hpiece hpieces => exact ⟨_, _, rfl, hpiece, _, hpieces, rfl⟩
  · rintro ⟨piece, _, rfl, hpiece, pieces, hpieces, rfl⟩
    exact ⟨piece :: pieces, .cons hpiece hpieces, rfl⟩

@[simp] theorem wholeCut_nil : WholeCut sep [] text ↔ text = [] := by
  constructor
  · intro h
    exact cut_nil.mp h.cut
  · rintro rfl
    exact ⟨[], .nil, rfl, trivial⟩

theorem wholeCut_cons :
    WholeCut sep (token :: pattern) text ↔
      ∃ piece rest, text = piece ++ rest ∧ Takes sep token piece ∧
        (token.runs = true → piece ≠ [] → Edge sep rest) ∧ WholeCut sep pattern rest := by
  constructor
  · rintro ⟨_, htakes, rfl, hwhole⟩
    cases htakes with
    | cons hpiece hpieces => exact ⟨_, _, rfl, hpiece, hwhole.1, _, hpieces, rfl, hwhole.2⟩
  · rintro ⟨piece, _, rfl, hpiece, hedge, pieces, hpieces, rfl, hwhole⟩
    exact ⟨piece :: pieces, .cons hpiece hpieces, rfl, hedge, hwhole⟩

/-! ## Runs that are taken at once -/

section Greedy

variable [DecidableEq α]

/-- The letters up to the next separator. -/
def ahead (sep : α) (text : List α) : List α := text.takeWhile (· ≠ sep)

/-- What follows them. -/
def behind (sep : α) (text : List α) : List α := text.dropWhile (· ≠ sep)

theorem ahead_append_behind (sep : α) (text : List α) : ahead sep text ++ behind sep text = text :=
  List.takeWhile_append_dropWhile

theorem not_mem_ahead : sep ∉ ahead sep text := by
  intro h
  simpa using List.mem_takeWhile_imp h

theorem edge_behind : Edge sep (behind sep text) := by
  induction text with
  | nil => simp [Edge, behind]
  | cons letter _ ih =>
    by_cases h : letter = sep
    · simp [Edge, behind, h]
    · simpa [behind, h] using ih

/-- A run up to the end of its segment is all that comes before the next separator. -/
theorem ahead_append (hplain : sep ∉ group) (hedge : Edge sep rest) :
    ahead sep (group ++ rest) = group ∧ behind sep (group ++ rest) = rest := by
  induction group with
  | nil =>
    cases rest with
    | nil => simp [ahead, behind]
    | cons letter =>
      have hletter : letter = sep := hedge letter rfl
      simp [ahead, behind, hletter]
  | cons letter _ ih =>
    rw [List.mem_cons, not_or] at hplain
    obtain ⟨hahead, hbehind⟩ := ih hplain.2
    have hne : letter ≠ sep := Ne.symm hplain.1
    constructor
    · simpa [ahead, hne] using hahead
    · simpa [behind, hne] using hbehind

end Greedy

@[simp] theorem wholeCut_one {letter : α} :
    WholeCut sep (.one letter :: pattern) text ↔
      ∃ rest, text = letter :: rest ∧ WholeCut sep pattern rest := by
  rw [wholeCut_cons]
  constructor
  · rintro ⟨_, rest, rfl, rfl, -, hrest⟩
    exact ⟨rest, rfl, hrest⟩
  · rintro ⟨rest, rfl, hrest⟩
    exact ⟨[letter], rest, rfl, rfl, by simp [Wild.runs], hrest⟩

theorem wholeCut_any :
    WholeCut sep (.any :: pattern) text ↔
      WholeCut sep pattern text ∨
        ∃ letter rest, text = letter :: rest ∧ WholeCut sep (.any :: pattern) rest := by
  constructor
  · intro h
    obtain ⟨piece, rest, rfl, -, -, hrest⟩ := wholeCut_cons.mp h
    cases piece with
    | nil => exact .inl hrest
    | cons letter piece =>
      refine .inr ⟨letter, piece ++ rest, rfl, ?_⟩
      exact wholeCut_cons.mpr ⟨piece, rest, rfl, trivial, by simp [Wild.runs], hrest⟩
  · rintro (h | ⟨letter, rest, rfl, h⟩)
    · exact wholeCut_cons.mpr ⟨[], text, rfl, trivial, by simp, h⟩
    · obtain ⟨piece, rest, rfl, -, -, hrest⟩ := wholeCut_cons.mp h
      exact wholeCut_cons.mpr ⟨letter :: piece, rest, rfl, trivial, by simp [Wild.runs], hrest⟩

variable [DecidableEq α]

theorem wholeCut_segment :
    WholeCut sep (.segment :: pattern) text ↔
      ahead sep text ≠ [] ∧ WholeCut sep pattern (behind sep text) := by
  rw [wholeCut_cons]
  constructor
  · rintro ⟨piece, rest, rfl, hplain, hedge, hrest⟩
    obtain ⟨hahead, hbehind⟩ := ahead_append hplain.2 (hedge rfl hplain.1)
    rw [hahead, hbehind]
    exact ⟨hplain.1, hrest⟩
  · rintro ⟨hne, hrest⟩
    refine ⟨ahead sep text, behind sep text, (ahead_append_behind sep text).symm, ?_, ?_, hrest⟩
    · exact ⟨hne, not_mem_ahead⟩
    · exact fun _ _ => edge_behind

/-- Either no group is taken, or the first one is the whole next segment. -/
theorem wholeCut_deep :
    WholeCut sep (.deep :: pattern) text ↔
      WholeCut sep pattern text ∨
        ∃ rest, text = sep :: rest ∧ ahead sep rest ≠ [] ∧
          WholeCut sep (.deep :: pattern) (behind sep rest) := by
  constructor
  · intro h
    obtain ⟨_, rest, rfl, ⟨groups, hplain, rfl⟩, hedge, hrest⟩ := wholeCut_cons.mp h
    cases groups with
    | nil => exact .inl hrest
    | cons group groups =>
      have hlast : Edge sep rest := hedge rfl (by simp)
      -- what follows the first group is another group, or the rest of the pattern
      have hnext : Edge sep (groups.flatMap (sep :: ·) ++ rest) := by
        cases groups with
        | nil => simpa using hlast
        | cons => simp [Edge]
      have hgroup := hplain group List.mem_cons_self
      obtain ⟨hahead, hbehind⟩ := ahead_append hgroup.2 hnext
      refine .inr ⟨group ++ (groups.flatMap (sep :: ·) ++ rest), by simp, ?_, ?_⟩
      · rw [hahead]
        exact hgroup.1
      · rw [hbehind]
        refine wholeCut_cons.mpr ⟨_, rest, rfl, ⟨groups, ?_, rfl⟩, fun _ _ => hlast, hrest⟩
        exact fun other hother => hplain other (List.mem_cons_of_mem _ hother)
  · rintro (h | ⟨rest, rfl, hne, h⟩)
    · exact wholeCut_cons.mpr ⟨[], text, rfl, ⟨[], by simp, rfl⟩, by simp, h⟩
    · obtain ⟨_, last, hlast, ⟨groups, hplain, rfl⟩, hedge, hlater⟩ := wholeCut_cons.mp h
      refine wholeCut_cons.mpr ⟨(ahead sep rest :: groups).flatMap (sep :: ·), last, ?_,
        ⟨ahead sep rest :: groups, ?_, rfl⟩, ?_, hlater⟩
      · rw [List.flatMap_cons, List.cons_append, List.cons_append, List.append_assoc, ← hlast,
          ahead_append_behind]
      · intro other hother
        rcases List.mem_cons.mp hother with rfl | hlater
        · exact ⟨hne, not_mem_ahead⟩
        · exact hplain other hlater
      · intro _ _
        cases groups with
        | nil =>
          rw [show last = behind sep rest from by simpa using hlast.symm]
          exact edge_behind
        | cons => exact hedge rfl (by simp)

/-! ## Patterns without a choice -/

/-- Nothing but a separator can come first. -/
def Anchored (sep : α) : List (Wild α) → Prop
  | [] => True
  | .one letter :: _ => letter = sep
  | .segment :: _ => False
  | .any :: pattern | .deep :: pattern => Anchored sep pattern

/-- Nothing but a separator can follow a run. -/
def Aligned (sep : α) : List (Wild α) → Prop
  | [] => True
  | token :: pattern => (token.runs = true → Anchored sep pattern) ∧ Aligned sep pattern

instance Anchored.decidable : ∀ pattern : List (Wild α), Decidable (Anchored sep pattern)
  | [] => .isTrue trivial
  | .one letter :: _ => inferInstanceAs (Decidable (letter = sep))
  | .segment :: _ => .isFalse id
  | .any :: pattern => Anchored.decidable pattern
  | .deep :: pattern => Anchored.decidable pattern

instance Aligned.decidable : ∀ pattern : List (Wild α), Decidable (Aligned sep pattern)
  | [] => .isTrue trivial
  | token :: pattern =>
    have : Decidable (Aligned sep pattern) := Aligned.decidable pattern
    inferInstanceAs (Decidable ((token.runs = true → Anchored sep pattern) ∧ Aligned sep pattern))

omit [DecidableEq α] in
/-- What an anchored pattern cuts after some letters of a segment, it also cuts after all
of them. -/
theorem Cut.skip (hanchored : Anchored sep pattern) (hplain : sep ∉ group)
    (hedge : Edge sep rest) (h : Cut sep pattern (group ++ rest)) : Cut sep pattern rest := by
  induction pattern generalizing group with
  | nil =>
    rw [cut_nil, List.append_eq_nil_iff] at h
    exact cut_nil.mpr h.2
  | cons token _ ih =>
    -- before a separator there is nothing to skip
    by_cases hnil : group = []
    · simpa [hnil] using h
    obtain ⟨piece, later, htext, htakes, hlater⟩ := cut_cons.mp h
    cases token with
    | one letter =>
      obtain rfl : letter = sep := hanchored
      obtain rfl : piece = [letter] := htakes
      cases group with
      | nil => exact absurd rfl hnil
      | cons => simp_all
    | segment => exact hanchored.elim
    | any =>
      rcases List.append_eq_append_iff.mp htext with ⟨taken, rfl, rfl⟩ | ⟨left, rfl, rfl⟩
      · exact cut_cons.mpr ⟨taken, later, rfl, trivial, hlater⟩
      · have hleft : sep ∉ left := fun hmem => hplain (List.mem_append_right _ hmem)
        exact cut_cons.mpr ⟨[], rest, rfl, trivial, ih hanchored hleft hlater⟩
    | deep =>
      obtain ⟨groups, -, rfl⟩ := htakes
      cases groups with
      | nil =>
        subst htext
        exact cut_cons.mpr ⟨[], rest, rfl, ⟨[], by simp, rfl⟩, ih hanchored hplain hlater⟩
      | cons =>
        -- a group begins with a separator, the text does not
        cases group with
        | nil => exact absurd rfl hnil
        | cons => simp_all

/-- A pattern in which nothing but a separator can follow a run takes whole segments. -/
theorem wholeCut_of_aligned (haligned : Aligned sep pattern) (h : Cut sep pattern text) :
    WholeCut sep pattern text := by
  induction pattern generalizing text with
  | nil => exact wholeCut_nil.mpr (cut_nil.mp h)
  | cons token _ ih =>
    obtain ⟨piece, rest, rfl, htakes, hrest⟩ := cut_cons.mp h
    by_cases hruns : token.runs = true ∧ piece ≠ []
    · -- the run is prolonged to the end of its segment
      have hanchored := haligned.1 hruns.1
      rw [← ahead_append_behind sep rest] at hrest
      have hwhole := ih haligned.2 (hrest.skip hanchored not_mem_ahead edge_behind)
      refine wholeCut_cons.mpr ⟨piece ++ ahead sep rest, behind sep rest, ?_, ?_,
        fun _ _ => edge_behind, hwhole⟩
      · rw [List.append_assoc, ahead_append_behind]
      · cases token with
        | one => cases hruns.1
        | any => trivial
        | segment => exact ⟨by simp [hruns.2], by simp [htakes.2, not_mem_ahead]⟩
        | deep =>
          obtain ⟨groups, hplain, rfl⟩ := htakes
          rcases List.eq_nil_or_concat groups with rfl | ⟨init, last, rfl⟩
          · exact absurd rfl hruns.2
          · refine ⟨init ++ [last ++ ahead sep rest], ?_, by simp⟩
            intro other hother
            rcases List.mem_append.mp hother with hinit | hlast
            · exact hplain other (by simp [hinit])
            · have hplainLast := hplain last (by simp)
              rw [List.mem_singleton.mp hlast]
              exact ⟨by simp [hplainLast.1], by simp [hplainLast.2, not_mem_ahead]⟩
    · refine wholeCut_cons.mpr ⟨piece, rest, rfl, htakes, ?_, ih haligned.2 hrest⟩
      exact fun htoken hpiece => absurd ⟨htoken, hpiece⟩ hruns

end NoizuMcp.Foundation.Globs
