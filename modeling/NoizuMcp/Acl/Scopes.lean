import NoizuMcp.Foundation.Globs
import NoizuMcp.Toolset.Persistence

/-!
# Scope rules

`Noizu.MCP.ACL.Providers.Scopes`: a check is allowed if some rule names a scope that the
caller holds, a pattern that the resource id matches and the action. Patterns are globs on
the characters of the id, which are grapheme clusters; how a text falls into them is a
parameter here, and no result depends on it.

The matcher never goes back over a run: `*` takes all of a segment that is left, and so
does every group of `/**`. It therefore finds the whole cuts of the id and no others
(`glob_eq_true_iff`), so that a pattern with further characters behind a wildcard may miss
ids that it describes.
-/

set_option autoImplicit false

namespace NoizuMcp.Acl.Scopes

open Foundation.Globs

/-! ## The matcher -/

/-- A character of a text, as `String.graphemes/1` gives it. -/
abbrev Grapheme := String

/-- The tokens of a pattern. -/
inductive Token where
  | star
  | doubleStar
  | char (grapheme : Grapheme)
  deriving DecidableEq, Repr

/-- The function of the reduction in `tokenize/1`. -/
def pushToken (acc : List Token) (grapheme : Grapheme) : List Token :=
  if grapheme = "*" then
    match acc with
    | .star :: rest => .doubleStar :: rest
    | acc => .star :: acc
  else .char grapheme :: acc

/-- The tokens of a pattern, stars joined. -/
def tokenize (graphemes : List Grapheme) : List Token := (graphemes.foldl pushToken []).reverse

mutual

/-- `glob?/2`: a star takes the rest of a segment, a double star any run. -/
def glob : List Token → List Grapheme → Bool
  | [], [] => true
  | .doubleStar :: rest, chars =>
    glob rest chars || match chars with
      | [] => false
      | _ :: later => glob (.doubleStar :: rest) later
  | .star :: rest, chars => !(ahead "/" chars).isEmpty && glob rest (behind "/" chars)
  | .char "/" :: .doubleStar :: rest, chars => glob rest chars || slashStar rest chars
  | .char grapheme :: rest, first :: chars => grapheme == first && glob rest chars
  | _, _ => false
termination_by pattern chars => (pattern.length, chars.length, 1)

/-- `slash_star?/2`: a segment that is not empty, and the double star goes on. -/
def slashStar (rest : List Token) : List Grapheme → Bool
  | "/" :: chars =>
    !(ahead "/" chars).isEmpty && glob (.char "/" :: .doubleStar :: rest) (behind "/" chars)
  | _ => false
termination_by chars => (rest.length + 2, chars.length, 0)
decreasing_by
  have hle : (behind "/" chars).length ≤ chars.length := List.length_dropWhile_le _ _
  apply Prod.Lex.right
  apply Prod.Lex.left
  exact Nat.lt_succ_of_le hle

end

/-- `resource_matches?/2`, for a way of splitting texts into characters. -/
def resourceMatches (graphemes : String → List Grapheme) (pattern id : String) : Bool :=
  glob (tokenize (graphemes pattern)) (graphemes id)

/-! ## What the patterns mean -/

/-- The tokens as wildcards: `/**` is one of its own. -/
def wilds : List Token → List (Wild Grapheme)
  | [] => []
  | .char "/" :: .doubleStar :: rest => .deep :: wilds rest
  | .doubleStar :: rest => .any :: wilds rest
  | .star :: rest => .segment :: wilds rest
  | .char grapheme :: rest => .one grapheme :: wilds rest

theorem wilds_char {grapheme : Grapheme} {rest : List Token}
    (h : ∀ later, rest = .doubleStar :: later → grapheme = "/" → False) :
    wilds (.char grapheme :: rest) = .one grapheme :: wilds rest := by
  rw [wilds]
  rintro later rfl rfl
  exact h later rfl rfl

/-- The matcher accepts the ids that can be cut into whole segments, and no others. -/
theorem glob_eq_true_iff (pattern : List Token) (chars : List Grapheme) :
    glob pattern chars = true ↔ WholeCut "/" (wilds pattern) chars := by
  -- by the recursion of the matcher; the groups of `/**` have a statement of their own
  apply glob.induct
    (fun pattern chars => glob pattern chars = true ↔ WholeCut "/" (wilds pattern) chars)
    (fun rest chars => slashStar rest chars = true ↔
      ∃ later, chars = "/" :: later ∧ ahead "/" later ≠ [] ∧
        WholeCut "/" (.deep :: wilds rest) (behind "/" later))
  case case1 => simp [glob, wilds]
  case case2 =>
    intro rest chars hrest hlater
    rw [wilds, wholeCut_any]
    cases chars with
    | nil => simp [glob, hrest]
    | cons =>
      rw [wilds] at hlater
      simp [glob, hrest, hlater]
  case case3 =>
    intro rest chars hrest
    simp [glob, wilds, wholeCut_segment, hrest]
  case case4 =>
    intro rest chars hrest hgroups
    rw [wilds, wholeCut_deep, glob, Bool.or_eq_true, hrest, hgroups]
  case case5 =>
    intro grapheme rest first chars hplain hrest
    rw [wilds_char hplain, wholeCut_one, glob, Bool.and_eq_true, beq_iff_eq, hrest]
    · constructor
      · rintro ⟨rfl, hcut⟩
        exact ⟨chars, rfl, hcut⟩
      · rintro ⟨later, heq, hcut⟩
        obtain ⟨rfl, rfl⟩ := List.cons.inj heq
        exact ⟨rfl, hcut⟩
    · exact hplain
  case case6 =>
    -- the pattern or the text is at its end, and the other is not
    intro pattern chars hend hany hsegment hdeep hchar
    cases pattern with
    | nil =>
      cases chars with
      | nil => exact (hend rfl rfl).elim
      | cons => simp [glob, wilds]
    | cons token rest =>
      cases token with
      | doubleStar => exact (hany rest rfl).elim
      | star => exact (hsegment rest rfl).elim
      | char grapheme =>
        cases chars with
        | cons first chars => exact (hchar grapheme rest first chars rfl rfl).elim
        | nil =>
          have hplain : ∀ later, rest = .doubleStar :: later → grapheme = "/" → False := by
            rintro later rfl rfl
            exact hdeep later rfl
          rw [wilds_char hplain, glob]
          · simp
          all_goals grind
  case case7 =>
    intro rest chars hnext
    rw [wilds] at hnext
    simp [slashStar, hnext]
  case case8 =>
    intro rest chars hslash
    rw [slashStar]
    · simp only [Bool.false_eq_true, false_iff]
      rintro ⟨later, rfl, -⟩
      exact hslash later rfl
    · exact hslash

/-- The id can be cut as the pattern says. -/
def Describes (graphemes : String → List Grapheme) (pattern id : String) : Prop :=
  Cut "/" (wilds (tokenize (graphemes pattern))) (graphemes id)

/-- The id can be cut so that `*` and every group of `/**` take a segment to its end. -/
def DescribesWhole (graphemes : String → List Grapheme) (pattern id : String) : Prop :=
  WholeCut "/" (wilds (tokenize (graphemes pattern))) (graphemes id)

variable {graphemes : String → List Grapheme} {pattern id : String}

theorem resourceMatches_iff_whole :
    resourceMatches graphemes pattern id = true ↔ DescribesWhole graphemes pattern id :=
  glob_eq_true_iff _ _

/-- What is matched is described. -/
theorem describes_of_matches (h : resourceMatches graphemes pattern id = true) :
    Describes graphemes pattern id :=
  (resourceMatches_iff_whole.mp h).cut

/-- The matcher means what the pattern says about an id just if, whenever the id can be cut
as the pattern says, it can be cut so that no wildcard stops inside a segment. -/
theorem matches_as_described_iff (graphemes : String → List Grapheme) (pattern id : String) :
    (resourceMatches graphemes pattern id = true ↔ Describes graphemes pattern id) ↔
      (Describes graphemes pattern id → DescribesWhole graphemes pattern id) := by
  rw [resourceMatches_iff_whole]
  constructor
  · intro h
    exact h.mpr
  · intro h
    exact ⟨WholeCut.cut, h⟩

/-- The characters of a text of plain letters. -/
def letters (text : String) : List Grapheme := text.toList.map String.singleton

/-- Behind a `*` the matcher finds no further character of the same segment. -/
theorem matches_not_as_described :
    ¬ (resourceMatches letters "tools:*_admin" "tools:user_admin" = true ↔
      Describes letters "tools:*_admin" "tools:user_admin") := by
  have hpattern : wilds (tokenize (letters "tools:*_admin")) =
      ["t", "o", "o", "l", "s", ":"].map .one ++
        .segment :: ["_", "a", "d", "m", "i", "n"].map .one := by decide
  have hid : letters "tools:user_admin" =
      ["t", "o", "o", "l", "s", ":"] ++ ["u", "s", "e", "r"] ++ ["_", "a", "d", "m", "i", "n"] := by
    decide
  intro h
  have hcut : Describes letters "tools:*_admin" "tools:user_admin" := by
    rw [Describes, hpattern]
    refine ⟨["t", "o", "o", "l", "s", ":"].map ([·]) ++
      ["u", "s", "e", "r"] :: ["_", "a", "d", "m", "i", "n"].map ([·]), ?_, rfl⟩
    simp [Takes, Plain]
  have hwhole := resourceMatches_iff_whole.mp (h.mpr hcut)
  rw [DescribesWhole, hpattern, hid] at hwhole
  simp [wholeCut_segment, behind] at hwhole

/-- A pattern in which a wildcard is the last thing of its segment means what it says. -/
theorem matches_of_aligned (h : Aligned "/" (wilds (tokenize (graphemes pattern)))) :
    resourceMatches graphemes pattern id = true ↔ Describes graphemes pattern id :=
  ⟨describes_of_matches, fun hcut => resourceMatches_iff_whole.mpr (wholeCut_of_aligned h hcut)⟩

theorem matches_of_aligned_content :
    resourceMatches letters "content:/resources/*/**" "content:/resources/a/b/c" = true ↔
      Describes letters "content:/resources/*/**" "content:/resources/a/b/c" :=
  matches_of_aligned (by decide)

/-! ## The provider -/

/-- A rule that `validate!/1` lets pass. -/
structure Rule where
  scope : String
  resource : String
  actions : List String
  acts : actions ≠ []

/-- `Principal.has_scope?/2`: the scope of a rule may end in a `*`. -/
def hasScope (principal : Toolset.Principal) (scope : String) : Bool :=
  if scope.toList.getLast? = some '*' then
    principal.grantedScopes.any fun granted => scope.toList.dropLast.isPrefixOf granted.toList
  else principal.grantedScopes.contains scope

/-- `rule_allows?/4` on a rule that is well formed. -/
def ruleAllows (graphemes : String → List Grapheme) (principal : Toolset.Principal)
    (id action : String) (rule : Rule) : Bool :=
  hasScope principal rule.scope && resourceMatches graphemes rule.resource id &&
    rule.actions.contains action

/-- `check/5`: the rules in order, up to the first that allows; a malformed one raises, and
so does a subject that is no principal. -/
def check (graphemes : String → List Grapheme) (subject : Option Toolset.Principal)
    (id action : String) (rules : List (Option Rule)) : Option Bool :=
  match subject with
  | none => none
  | some principal => checkRules principal rules
where
  checkRules (principal : Toolset.Principal) : List (Option Rule) → Option Bool
    | [] => some false
    | none :: _ => none
    | some rule :: rest =>
      if ruleAllows graphemes principal id action rule then some true
      else checkRules principal rest

variable {principal : Toolset.Principal} {action : String}

theorem ruleAllows_iff {rule : Rule} : ruleAllows graphemes principal id action rule = true ↔
    hasScope principal rule.scope = true ∧ DescribesWhole graphemes rule.resource id ∧
      action ∈ rule.actions := by
  rw [ruleAllows, Bool.and_eq_true, Bool.and_eq_true, resourceMatches_iff_whole,
    List.contains_iff_mem, and_assoc]

/-- A check is allowed just if, before any malformed rule, there is one whose scope the caller
holds, whose pattern has a whole cut of the id, and which names the action. -/
theorem check_allows_iff (subject : Option Toolset.Principal) (rules : List (Option Rule)) :
    check graphemes subject id action rules = some true ↔ ∃ principal, subject = some principal ∧
      ∃ rule, some rule ∈ rules.takeWhile Option.isSome ∧ hasScope principal rule.scope = true ∧
        DescribesWhole graphemes rule.resource id ∧ action ∈ rule.actions := by
  cases subject with
  | none => simp [check]
  | some principal =>
    simp only [check, Option.some.injEq, exists_eq_left', ← ruleAllows_iff]
    induction rules with
    | nil => simp [check.checkRules]
    | cons first _ ih =>
      cases first with
      | none => simp [check.checkRules]
      | some rule =>
        by_cases hallows : ruleAllows graphemes principal id action rule = true
        · simp [check.checkRules, hallows]
        · simp [check.checkRules, hallows, ih]

end NoizuMcp.Acl.Scopes
