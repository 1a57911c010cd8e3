import NoizuMcp.Foundation.Table
import NoizuMcp.Foundation.Words

/-!
# Challenges

`Noizu.MCP.Auth.WWWAuthenticate`: how a challenge is written and read back. The source works on
bytes and tests ASCII ones only, so that a text is here a list of characters.

`format/2` escapes quotes and backslashes and `parse/1` does not undo it: a value with a quote is
cut there (`quote_cuts_value`). Just the values with neither character survive (`parse_format`). No
other list comes back by accident: every match takes up an equals sign for its name and those of
its value, and there are no more in the text than the parameters need, so that the first match,
which is the first parameter or a part of it, has to be the parameter.
-/

set_option autoImplicit false

namespace NoizuMcp.Auth.WwwAuthenticate

open Foundation

abbrev Text := List Char

/-- A parsed header: the scheme and its parameters by name. -/
structure Challenge where
  scheme : Text := "Bearer".toList
  params : Table Text Text := ∅

/-! ## Writing -/

/-- The `ArgumentError` of a name and of a value. -/
inductive Refused where
  | name
  | value

def Refused.message : Refused → String
  | .name => "WWW-Authenticate parameter name is not a valid HTTP token"
  | .value => "WWW-Authenticate parameter value contains a control character " ++
      "(CR, LF, NUL, DEL or other) and cannot be encoded safely"

/-- Tab, and everything from the blank on but DEL. -/
def printable (c : Char) : Bool := c == '\t' || (0x20 ≤ c.toNat && c.toNat != 0x7F)

/-- The characters of an HTTP token. -/
def tokenChar (c : Char) : Bool := c.isAlphanum || "!#$%&'*+-.^_`|~".toList.contains c

/-- `String.replace/3` of one character. -/
def replace (c : Char) (new text : Text) : Text := text.flatMap fun d => if d = c then new else [d]

/-- `escape_quoted/1`: backslashes first, then quotes. -/
def escapeQuoted (value : Text) : Except Refused Text :=
  if value.all printable then
    .ok (replace '"' ['\\', '"'] (replace '\\' ['\\', '\\'] value))
  else .error .value

/-- `validate_token!/1`. -/
def validateToken (key : Text) : Except Refused Text :=
  if key ≠ [] ∧ key.all tokenChar then .ok key else .error .name

/-- A name and a quoted text. -/
def quoted (key value : Text) : Text := key ++ '=' :: '"' :: (value ++ ['"'])

/-- One parameter of the header. -/
def render (param : Text × Text) : Except Refused Text := do
  let key ← validateToken param.1
  let value ← escapeQuoted param.2
  pure (quoted key value)

/-- `format/2`: a scheme without parameters stands alone. -/
def format (scheme : Text) (params : List (Text × Text)) : Except Refused Text := do
  match List.intercalate ", ".toList (← params.mapM render) with
  | [] => pure scheme
  | rendered => pure (scheme ++ ' ' :: rendered)

/-! ## Reading -/

/-- The class `[a-zA-Z0-9_]`. -/
def wordChar (c : Char) : Bool := c.isAlphanum || c == '_'

/-- The class `[^,\s]`. -/
def bareChar (c : Char) : Bool := !",  \t\n\r\x0b\x0c".toList.contains c

/-- The second alternative of a value, with the length it takes. -/
def bareAt (text : Text) : Option (Text × Nat) :=
  match text.takeWhile bareChar with
  | [] => none
  | bare => some (bare, bare.length)

/-- The value at the head of a text: what stands between two quotes, else a bare one. -/
def valueAt : Text → Option (Text × Nat)
  | '"' :: rest =>
    match cutChars '"' rest with
    | some (value, _) => some (value, value.length + 2)
    | none => bareAt ('"' :: rest)
  | text => bareAt text

/-- A match of the regular expression at the head of a text: the pair and the length. -/
def matchAt (text : Text) : Option ((Text × Text) × Nat) :=
  match text.takeWhile wordChar, text.dropWhile wordChar with
  | c :: key, '=' :: rest =>
    (valueAt rest).map fun (value, length) => ((c :: key, value), key.length + 2 + length)
  | _, _ => none

/-- `Regex.scan/2`: every match from left to right, the next one after the end of the last. The
number counts the characters still covered by it. -/
def scan : Nat → Text → List (Text × Text)
  | _, [] => []
  | covered + 1, _ :: rest => scan covered rest
  | 0, c :: rest =>
    match matchAt (c :: rest) with
    | some (pair, length) => pair :: scan (length - 1) rest
    | none => scan 0 rest

/-- `Map.new/1`: of two pairs with one key the later one stays. -/
def mapNew (pairs : List (Text × Text)) : Table Text Text :=
  (pairs.reverse.map fun pair => (⟨pair.1, pair.2⟩ : Sigma fun _ : Text => Text)).toAList

/-- `parse/1`: whatever the pattern finds behind the first blank. -/
def parse : Option Text → Option Challenge
  | none => none
  | some header =>
    match cutChars ' ' header with
    | none => some { scheme := header }
    | some (scheme, params) => some { scheme, params := mapNew (scan 0 params) }

/-! ## Escaped texts -/

/-- The two replacements of `escape_quoted/1`. -/
def escaped (value : Text) : Text := replace '"' ['\\', '"'] (replace '\\' ['\\', '\\'] value)

def escapedChar (c : Char) : Text :=
  if c = '"' then ['\\', '"'] else if c = '\\' then ['\\', '\\'] else [c]

theorem escaped_cons (c : Char) (value : Text) :
    escaped (c :: value) = escapedChar c ++ escaped value := by
  unfold escaped escapedChar replace
  by_cases hquote : c = '"'
  · subst hquote
    rfl
  · by_cases hslash : c = '\\'
    · subst hslash
      rfl
    · simp [hquote, hslash]

/-- No character needs an escape. -/
def Plain (value : Text) : Prop := '"' ∉ value ∧ '\\' ∉ value

theorem length_le_escaped (value : Text) : value.length ≤ (escaped value).length := by
  induction value with
  | nil => exact Nat.le_refl _
  | cons c value ih =>
    rw [escaped_cons, List.length_append, List.length_cons, escapedChar]
    split_ifs <;> simp <;> omega

/-- A value is written as it is just if it needs no escape. -/
theorem escaped_eq_iff {value : Text} : escaped value = value ↔ Plain value := by
  induction value with
  | nil => exact iff_of_true rfl ⟨List.not_mem_nil, List.not_mem_nil⟩
  | cons c value ih =>
    by_cases hspecial : c = '"' ∨ c = '\\'
    · refine iff_of_false (fun h => ?_) (fun h => ?_)
      · have hlength := congrArg List.length h
        have hle := length_le_escaped value
        rw [escaped_cons, escapedChar] at hlength
        rcases hspecial with rfl | rfl <;> simp at hlength <;> omega
      · rcases hspecial with rfl | rfl
        · exact h.1 List.mem_cons_self
        · exact h.2 List.mem_cons_self
    · obtain ⟨hquote, hslash⟩ := not_or.mp hspecial
      rw [escaped_cons, escapedChar, if_neg hquote, if_neg hslash, List.singleton_append,
        List.cons.injEq, ih]
      simp [Plain, Ne.symm hquote, Ne.symm hslash]

theorem mem_escaped_quote {value : Text} : '"' ∈ escaped value ↔ '"' ∈ value := by
  induction value with
  | nil => rfl
  | cons c value ih =>
    rw [escaped_cons, List.mem_append, ih, List.mem_cons, escapedChar]
    split_ifs with hquote hslash
    · simp [hquote]
    · simp [hslash]
    · simp

theorem count_escaped (value : Text) : (escaped value).count '=' = value.count '=' := by
  induction value with
  | nil => rfl
  | cons c value ih =>
    have hchar : (escapedChar c).count '=' = [c].count '=' := by
      unfold escapedChar
      split_ifs with hquote hslash
      · rw [hquote]
        rfl
      · rw [hslash]
        rfl
      · rfl
    rw [escaped_cons, List.count_append, ih, hchar, ← List.count_append, List.singleton_append]

/-! ## Matches -/

theorem scan_covered (covered rest : Text) :
    scan covered.length (covered ++ rest) = scan 0 rest := by
  induction covered with
  | nil => rfl
  | cons c _ ih => exact ih

theorem matchAt_quoted {c : Char} {key value : Text} (hkey : ∀ d ∈ c :: key, wordChar d)
    (hvalue : '"' ∉ value) (rest : Text) :
    matchAt (quoted (c :: key) value ++ rest)
      = some ((c :: key, value), key.length + 2 + (value.length + 2)) := by
  have hsplit : quoted (c :: key) value ++ rest = (c :: key) ++ '=' :: '"' :: (value ++ '"' :: rest)
    := by simp [quoted]
  rw [hsplit, matchAt, List.takeWhile_append_of_pos hkey, List.dropWhile_append_of_pos hkey,
    List.takeWhile_cons_of_neg (by decide), List.dropWhile_cons_of_neg (by decide), List.append_nil]
  simp only [valueAt, cutChars_append hvalue, Option.map_some]

theorem scan_quoted {key value : Text} (hkey : key ≠ [] ∧ ∀ d ∈ key, wordChar d)
    (hvalue : '"' ∉ value) (rest : Text) :
    scan 0 (quoted key value ++ rest) = (key, value) :: scan 0 rest := by
  obtain ⟨hne, hkey⟩ := hkey
  obtain _ | ⟨c, key⟩ := key
  · exact absurd rfl hne
  -- the match starts at `c` and covers the whole parameter
  have hlength : key.length + 2 + (value.length + 2) - 1 = (quoted key value).length := by
    simp only [quoted, List.length_append, List.length_cons, List.length_nil]
    omega
  have hmatch := matchAt_quoted hkey hvalue rest
  rw [quoted, List.cons_append, List.cons_append] at hmatch ⊢
  rw [scan, hmatch]
  exact congrArg _ (hlength ▸ scan_covered (quoted key value) rest)

/-- The equals signs that some pairs take up. -/
def equalsOf : List (Text × Text) → Nat
  | [] => 0
  | pair :: pairs => 1 + pair.2.count '=' + equalsOf pairs

theorem equalsOf_perm {pairs others : List (Text × Text)} (h : pairs.Perm others) :
    equalsOf pairs = equalsOf others := by
  induction h with
  | nil => rfl
  | cons _ _ ih => simp only [equalsOf, ih]
  | swap => simp only [equalsOf, Nat.add_left_comm]
  | trans _ _ h h' => exact h.trans h'

theorem count_bareAt {text value : Text} {length : Nat} (h : bareAt text = some (value, length)) :
    value.count '=' + (text.drop length).count '=' ≤ text.count '=' := by
  have hsplit : text.takeWhile bareChar ++ text.dropWhile bareChar = text :=
    List.takeWhile_append_dropWhile
  unfold bareAt at h
  generalize text.takeWhile bareChar = bare at h hsplit
  split at h
  case h_1 => cases h
  case h_2 =>
    cases h
    rw [← hsplit, List.drop_left, List.count_append]

theorem count_valueAt {text value : Text} {length : Nat} (h : valueAt text = some (value, length)) :
    value.count '=' + (text.drop length).count '=' ≤ text.count '=' := by
  unfold valueAt at h
  split at h
  case h_2 => exact count_bareAt h
  case h_1 rest =>
    split at h
    case h_2 => exact count_bareAt h
    case h_1 behind hcut =>
      cases h
      have hdrop : ('"' :: rest).drop (value.length + 2) = behind := by
        rw [cutChars_eq_some hcut, List.drop_succ_cons, List.drop_append]
        simp
      rw [hdrop, cutChars_eq_some hcut, List.count_cons, List.count_append, List.count_cons]
      omega

theorem count_matchAt {text : Text} {pair : Text × Text} {length : Nat}
    (h : matchAt text = some (pair, length)) :
    1 + pair.2.count '=' + (text.drop length).count '=' ≤ text.count '=' := by
  have hsplit : text.takeWhile wordChar ++ text.dropWhile wordChar = text :=
    List.takeWhile_append_dropWhile
  unfold matchAt at h
  generalize text.takeWhile wordChar = word at h hsplit
  generalize text.dropWhile wordChar = rest at h hsplit
  split at h
  case h_2 => cases h
  case h_1 c key rest =>
    obtain ⟨⟨value, taken⟩, hvalue, heq⟩ := Option.map_eq_some_iff.mp h
    cases heq
    have hdrop : text.drop (key.length + 2 + taken) = rest.drop taken := by
      have hlength : key.length + 2 + taken = ((c :: key) ++ ['=']).length + taken := by simp
      have htext : text = ((c :: key) ++ ['=']) ++ rest := by simp [← hsplit]
      rw [htext, hlength, List.drop_length_add_append]
    have hcount := count_valueAt hvalue
    rw [hdrop, ← hsplit, List.count_append, List.count_cons_self]
    dsimp only
    omega

theorem equalsOf_scan (covered : Nat) (text : Text) :
    equalsOf (scan covered text) ≤ (text.drop covered).count '=' := by
  induction text generalizing covered with
  | nil => cases covered <;> exact Nat.zero_le _
  | cons c text ih =>
    cases covered with
    | succ covered => exact ih covered
    | zero =>
      rw [scan]
      split
      case h_2 =>
        have hrest := ih 0
        rw [List.drop_zero] at hrest ⊢
        exact Nat.le_trans hrest (List.count_le_count_cons)
      case h_1 pair length hmatch =>
        have hcount := count_matchAt hmatch
        cases length with
        | zero =>
          rw [List.drop_zero] at hcount
          omega
        | succ length =>
          have hrest := ih length
          rw [List.drop_succ_cons] at hcount
          simp only [equalsOf, List.drop_zero, Nat.add_sub_cancel]
          omega

/-! ## The written parameters -/

/-- The parameters behind the first, each with its separator. -/
def following : List (Text × Text) → Text
  | [] => []
  | (key, value) :: params => ',' :: ' ' :: (quoted key (escaped value) ++ following params)

def written : List (Text × Text) → Text
  | [] => []
  | (key, value) :: params => quoted key (escaped value) ++ following params

theorem intercalate_eq_written (params : List (Text × Text)) :
    List.intercalate ", ".toList (params.map fun param => quoted param.1 (escaped param.2)) =
      written params := by
  have hfollowing : ∀ (param : Text × Text) (params : List (Text × Text)),
      List.intercalate ", ".toList
          ((param :: params).map fun param => quoted param.1 (escaped param.2)) =
        quoted param.1 (escaped param.2) ++ following params := by
    intro param params
    induction params generalizing param with
    | nil => simp [following]
    | cons next params ih =>
      have hrest := ih next
      rw [List.map_cons] at hrest
      rw [List.map_cons, List.map_cons, List.intercalate_cons_cons, hrest, List.append_assoc]
      rfl
  cases params with
  | nil => rfl
  | cons param params => exact hfollowing param params

/-- The separator begins no match. -/
theorem scan_following (params : List (Text × Text)) :
    scan 0 (following params) = scan 0 (written params) := by
  cases params <;> rfl

/-- A name of the class that `parse/1` reads. -/
def Word (key : Text) : Prop := key ≠ [] ∧ ∀ c ∈ key, wordChar c

theorem count_following {params : List (Text × Text)} (hkeys : ∀ param ∈ params, Word param.1) :
    (following params).count '=' = equalsOf params := by
  induction params with
  | nil => rfl
  | cons param params ih =>
    rw [List.forall_mem_cons] at hkeys
    have hkey : param.1.count '=' = 0 := List.count_eq_zero.mpr fun hmem =>
      absurd (hkeys.1.2 _ hmem) (by decide)
    simp only [following, quoted, equalsOf, List.count_cons, List.count_append, hkey,
      count_escaped]
    rw [ih hkeys.2]
    simp
    omega

theorem count_written {params : List (Text × Text)} (hkeys : ∀ param ∈ params, Word param.1) :
    (written params).count '=' = equalsOf params := by
  rw [← count_following hkeys]
  cases params <;> rfl

/-- Where all parameters are found, nothing else is. -/
theorem mem_of_found {params pairs : List (Text × Text)} (hnodup : params.Nodup)
    (hfound : ∀ param ∈ params, param ∈ pairs) (hequals : equalsOf pairs ≤ equalsOf params) :
    ∀ pair ∈ pairs, pair ∈ params := by
  induction params generalizing pairs with
  | nil =>
    cases pairs with
    | nil => exact fun _ h => h
    | cons =>
      simp only [equalsOf] at hequals
      omega
  | cons param params ih =>
    rw [List.nodup_cons] at hnodup
    rw [List.forall_mem_cons] at hfound
    have hperm := List.perm_cons_erase hfound.1
    have hsum : equalsOf pairs = 1 + param.2.count '=' + equalsOf (pairs.erase param) :=
      equalsOf_perm hperm
    have hcons : equalsOf (param :: params) = 1 + param.2.count '=' + equalsOf params := rfl
    have hrest : ∀ pair ∈ pairs.erase param, pair ∈ params := by
      refine ih hnodup.2 (fun other hother => ?_) (by omega)
      have hne : other ≠ param := fun heq => hnodup.1 (heq ▸ hother)
      exact (List.mem_erase_of_ne hne).mpr (hfound.2 other hother)
    intro pair hpair
    rcases List.mem_cons.mp (hperm.subset hpair) with rfl | hpair
    · exact List.mem_cons_self
    · exact List.mem_cons_of_mem _ (hrest pair hpair)

theorem scan_first {key value : Text} (params : List (Text × Text)) (hkey : Word key)
    (hvalue : '"' ∉ value) :
    scan 0 (written ((key, value) :: params)) =
      (key, escaped value) :: scan 0 (written params) := by
  rw [written, scan_quoted hkey (mem_escaped_quote.not.mpr hvalue), scan_following]

/-- Parameters that are all found are written as they are. -/
theorem plain_of_found {params : List (Text × Text)} (hkeys : ∀ param ∈ params, Word param.1)
    (hnames : (params.map Prod.fst).Nodup)
    (hfound : ∀ param ∈ params, param ∈ scan 0 (written params)) :
    ∀ param ∈ params, Plain param.2 := by
  induction params with
  | nil => simp
  | cons param params ih =>
    obtain ⟨key, value⟩ := param
    have hall := mem_of_found hnames.of_map hfound (count_written hkeys ▸ equalsOf_scan 0 _)
    -- A pair with the first name is the first parameter.
    have hfirst : ∀ other, (key, other) ∈ scan 0 (written ((key, value) :: params)) →
        other = value := fun other hother =>
      congrArg Prod.snd (List.inj_on_of_nodup_map hnames (hall _ hother) List.mem_cons_self rfl)
    rw [List.forall_mem_cons] at hkeys
    have hquote : '"' ∉ value := by
      intro hquote
      obtain ⟨start, rest, hsplit, hstart⟩ :=
        List.eq_append_cons_of_mem (mem_escaped_quote.mpr hquote)
      have htext : written ((key, value) :: params) =
          quoted key start ++ (rest ++ '"' :: following params) := by
        simp [written, quoted, hsplit]
      have hmem : (key, start) ∈ scan 0 (written ((key, value) :: params)) := by
        rw [htext, scan_quoted hkeys.1 hstart]
        exact List.mem_cons_self
      exact hstart (hfirst start hmem ▸ hquote)
    have hscan := scan_first params hkeys.1 hquote
    have hvalue : escaped value = value := hfirst _ (hscan ▸ List.mem_cons_self)
    rw [List.map_cons, List.nodup_cons] at hnames
    refine List.forall_mem_cons.mpr ⟨escaped_eq_iff.mp hvalue, ih hkeys.2 hnames.2 ?_⟩
    intro param hparam
    have hmem := hfound param (List.mem_cons_of_mem _ hparam)
    rw [hscan] at hmem
    refine (List.mem_cons.mp hmem).resolve_left fun heq => hnames.1 ?_
    exact List.mem_map.mpr ⟨param, hparam, by rw [heq]⟩

/-- Parameters that need no escape are found as they are. -/
theorem scan_written {params : List (Text × Text)} (hkeys : ∀ param ∈ params, Word param.1)
    (hplain : ∀ param ∈ params, Plain param.2) : scan 0 (written params) = params := by
  induction params with
  | nil => rfl
  | cons param params ih =>
    rw [List.forall_mem_cons] at hkeys hplain
    rw [scan_first params hkeys.1 hplain.1.1, escaped_eq_iff.mpr hplain.1, ih hkeys.2 hplain.2]

/-! ## The round trip -/

theorem render_eq_ok {param : Text × Text} {text : Text} (h : render param = .ok text) :
    param.1 ≠ [] ∧ text = quoted param.1 (escaped param.2) := by
  simp only [render, validateToken, escapeQuoted] at h
  split at h
  case isFalse => cases h
  case isTrue hkey =>
    split at h
    · cases h
      exact ⟨hkey.1, rfl⟩
    · cases h

theorem mapM_render {params : List (Text × Text)} {texts : List Text}
    (h : params.mapM render = .ok texts) : (∀ param ∈ params, param.1 ≠ []) ∧
      texts = params.map fun param => quoted param.1 (escaped param.2) := by
  induction params generalizing texts with
  | nil =>
    cases h
    exact ⟨by simp, rfl⟩
  | cons param params ih =>
    rw [List.forall_mem_cons]
    rw [List.mapM_cons] at h
    cases hfirst : render param with
    | error =>
      rw [hfirst] at h
      cases h
    | ok =>
      cases hrest : params.mapM render with rw [hfirst, hrest] at h
      | error => cases h
      | ok =>
        cases h
        obtain ⟨hne, rfl⟩ := render_eq_ok hfirst
        obtain ⟨hnes, rfl⟩ := ih hrest
        exact ⟨⟨hne, hnes⟩, rfl⟩

theorem format_eq_ok {scheme header : Text} {params : List (Text × Text)}
    (h : format scheme params = .ok header) : (∀ param ∈ params, param.1 ≠ []) ∧
      (params ≠ [] → header = scheme ++ ' ' :: written params) := by
  rw [format] at h
  cases htexts : params.mapM render with
  | error =>
    rw [htexts] at h
    cases h
  | ok =>
    obtain ⟨hne, rfl⟩ := mapM_render htexts
    refine ⟨hne, fun hparams => ?_⟩
    rw [htexts] at h
    dsimp only [bind, Except.bind] at h
    rw [intercalate_eq_written] at h
    obtain ⟨⟨key, value⟩, params, rfl⟩ := List.exists_cons_of_ne_nil hparams
    have hkey : key ≠ [] := hne (key, value) List.mem_cons_self
    obtain ⟨c, key, rfl⟩ := List.exists_cons_of_ne_nil hkey
    cases h
    rfl

/-- The parameters that `parse/1` finds in a header. -/
def found (header : Text) : List (Text × Text) :=
  match cutChars ' ' header with
  | none => []
  | some parts => scan 0 parts.2

theorem parse_found (header : Text) :
    ∃ challenge, parse (some header) = some challenge ∧
      challenge.params = mapNew (found header) := by
  cases hcut : cutChars ' ' header with
  | none =>
    refine ⟨{ scheme := header }, by simp only [parse, hcut], ?_⟩
    simp only [found, hcut]
    rfl
  | some parts =>
    exact ⟨{ scheme := parts.1, params := mapNew (scan 0 parts.2) }, by simp only [parse, hcut],
      by simp only [found, hcut]⟩

/-- Nothing bare stands at the head of the text. -/
def Stops (text : Text) : Prop := ∀ c rest, text = c :: rest → bareChar c = false

theorem Stops.space {text : Text} (h : Stops text) (rest : Text) : Stops (text ++ ' ' :: rest) := by
  intro c tail heq
  obtain _ | ⟨d, text⟩ := text
  · cases heq
    decide
  · cases heq
    exact h c text rfl

theorem valueAt_eq_none {text : Text} : valueAt text = none ↔ Stops text := by
  have hbare : ∀ c rest, bareAt (c :: rest) = none ↔ bareChar c = false := by
    intro c rest
    unfold bareAt
    cases hc : bareChar c <;> simp [hc]
  obtain _ | ⟨c, rest⟩ := text
  · exact iff_of_true rfl fun _ _ heq => nomatch heq
  have hstops : Stops (c :: rest) ↔ bareChar c = false := by
    refine ⟨fun h => h c rest rfl, fun h d tail heq => ?_⟩
    cases heq
    exact h
  rw [hstops, ← hbare c rest]
  unfold valueAt
  split
  case h_1 heq =>
    cases heq
    split
    · simp [hbare]
      decide
    · rfl
  case h_2 => rfl

/-- Where there is no match, there is none with a space and more behind it. -/
theorem matchAt_space {text : Text} (h : matchAt text = none) (rest : Text) :
    matchAt (text ++ ' ' :: rest) = none := by
  have hdrop : (text ++ ' ' :: rest).dropWhile wordChar =
      if (text.dropWhile wordChar).isEmpty then (' ' :: rest).dropWhile wordChar
      else text.dropWhile wordChar ++ ' ' :: rest := List.dropWhile_append
  unfold matchAt at h ⊢
  cases hbehind : text.dropWhile wordChar with rw [hbehind] at hdrop h
  | nil =>
    have hspace : (text ++ ' ' :: rest).dropWhile wordChar = ' ' :: rest := hdrop
    rw [hspace]
    split
    case h_1 heq => cases heq
    case h_2 => rfl
  | cons d behind =>
    have hsame : (text ++ ' ' :: rest).takeWhile wordChar = text.takeWhile wordChar := by
      have hsplit : text.takeWhile wordChar ++ text.dropWhile wordChar = text :=
        List.takeWhile_append_dropWhile
      have hlength := congrArg List.length hsplit
      rw [hbehind, List.length_append, List.length_cons] at hlength
      rw [List.takeWhile_append, if_neg (by omega)]
    have hbehind' : (text ++ ' ' :: rest).dropWhile wordChar = d :: (behind ++ ' ' :: rest) := hdrop
    rw [hsame, hbehind']
    split
    case h_2 => rfl
    case h_1 c key value hkey heq =>
      cases heq
      rw [hkey] at h
      have hstops := valueAt_eq_none.mp (Option.map_eq_none_iff.mp h)
      rw [valueAt_eq_none.mpr (hstops.space rest), Option.map_none]

theorem scan_space {text : Text} (h : scan 0 text = []) (rest : Text) :
    scan 0 (text ++ ' ' :: rest) = scan 0 rest := by
  induction text with
  | nil => rfl
  | cons c text ih =>
    rw [scan] at h
    split at h
    case h_1 => cases h
    case h_2 hnone =>
      have hmatch := matchAt_space hnone rest
      rw [List.cons_append] at hmatch ⊢
      rw [scan, hmatch]
      exact ih h

/-- Behind a scheme that holds no parameter, those are found that are written. -/
theorem found_append {scheme : Text} (h : found scheme = []) (text : Text) :
    found (scheme ++ ' ' :: text) = scan 0 text := by
  unfold found at h
  cases hcut : cutChars ' ' scheme with
  | none => rw [found, cutChars_append (cutChars_eq_none.mp hcut)]
  | some parts =>
    rw [hcut] at h
    have hheader : scheme ++ ' ' :: text = parts.1 ++ ' ' :: (parts.2 ++ ' ' :: text) := by
      simp [cutChars_eq_some hcut]
    rw [found, hheader, cutChars_append (not_mem_cutChars hcut)]
    exact scan_space h text

theorem lookup_mapNew {params : List (Text × Text)} (hnames : (params.map Prod.fst).Nodup)
    (name value : Text) : (mapNew params).lookup name = some value ↔ (name, value) ∈ params := by
  have hkeys : (params.reverse.map fun pair =>
      (⟨pair.1, pair.2⟩ : Sigma fun _ : Text => Text)).NodupKeys := by
    rw [List.NodupKeys, List.keys, List.map_map, List.map_reverse, List.nodup_reverse]
    exact hnames
  rw [mapNew, AList.lookup_to_alist]
  refine (List.mem_dlookup_iff hkeys).trans ?_
  simp

theorem mem_of_lookup_mapNew {pairs : List (Text × Text)} {name value : Text}
    (h : (mapNew pairs).lookup name = some value) : (name, value) ∈ pairs := by
  rw [mapNew, AList.lookup_to_alist] at h
  simpa using List.of_mem_dlookup h

theorem lookup_mapNew_isSome {pairs : List (Text × Text)} {pair : Text × Text} (h : pair ∈ pairs) :
    ((mapNew pairs).lookup pair.1).isSome := by
  rw [mapNew, AList.lookup_to_alist, List.dlookup_isSome, List.mem_keys]
  exact ⟨pair.2, by simpa using h⟩

/-- The challenge is read back with exactly its parameters. -/
def Restores (scheme : Text) (params : List (Text × Text)) : Prop :=
  ∃ header challenge, format scheme params = .ok header ∧ parse (some header) = some challenge ∧
    ∀ name value, challenge.params.lookup name = some value ↔ (name, value) ∈ params

theorem restores_nil {scheme : Text} : Restores scheme [] ↔ found scheme = [] := by
  obtain ⟨challenge, hparse, hparams⟩ := parse_found scheme
  constructor
  · rintro ⟨header, challenge', hformat, hparse', hlookup⟩
    cases hformat
    cases hparse.symm.trans hparse'
    by_contra hne
    obtain ⟨pair, pairs, hpairs⟩ := List.exists_cons_of_ne_nil hne
    obtain ⟨value, hvalue⟩ := Option.isSome_iff_exists.mp
      (lookup_mapNew_isSome (hpairs ▸ List.mem_cons_self : pair ∈ found scheme))
    rw [← hparams] at hvalue
    exact absurd ((hlookup pair.1 value).mp hvalue) List.not_mem_nil
  · intro h
    refine ⟨scheme, challenge, rfl, hparse, fun name value => ?_⟩
    rw [hparams, h]
    exact lookup_mapNew (by simp) name value

/-- A challenge and the bare one of its scheme are read back with exactly their parameters, just if
the scheme itself holds nothing that reads as a parameter and no value needs an escape. -/
theorem parse_format {scheme header : Text} {params : List (Text × Text)}
    (hnames : (params.map Prod.fst).Nodup) (hword : ∀ param ∈ params, ∀ c ∈ param.1, wordChar c)
    (hformat : format scheme params = .ok header) :
    Restores scheme [] ∧ Restores scheme params ↔
      found scheme = [] ∧ ∀ param ∈ params, Plain param.2 := by
  rw [restores_nil]
  refine and_congr_right fun hscheme => ?_
  by_cases hnil : params = []
  · subst hnil
    exact iff_of_true (restores_nil.mpr hscheme) (by simp)
  obtain ⟨hne, hheader⟩ := format_eq_ok hformat
  have hkeys : ∀ param ∈ params, Word param.1 := fun param hparam =>
    ⟨hne param hparam, hword param hparam⟩
  obtain ⟨challenge, hparse, hparams⟩ := parse_found header
  have hfound : found header = scan 0 (written params) := by
    rw [hheader hnil, found_append hscheme]
  rw [hfound] at hparams
  constructor
  · rintro ⟨header', challenge', hformat', hparse', hlookup⟩
    cases hformat.symm.trans hformat'
    cases hparse.symm.trans hparse'
    refine plain_of_found hkeys hnames fun param hparam => ?_
    apply mem_of_lookup_mapNew
    rw [← hparams]
    exact (hlookup param.1 param.2).mpr hparam
  · intro hplain
    refine ⟨header, challenge, hformat, hparse, fun name value => ?_⟩
    rw [hparams, scan_written hkeys hplain]
    exact lookup_mapNew hnames name value

/-- A scheme of two words, and a value with a comma and an equals sign. -/
theorem parse_format_scope :
    Restores "Bearer v2".toList [("scope".toList, "a=1, b".toList)] := by
  have hword : ∀ param ∈ [("scope".toList, "a=1, b".toList)], ∀ c ∈ param.1, wordChar c = true :=
    List.forall_mem_singleton.mpr (List.all_eq_true.mp rfl)
  have hformat : format "Bearer v2".toList [("scope".toList, "a=1, b".toList)] =
      .ok "Bearer v2 scope=\"a=1, b\"".toList := rfl
  refine ((parse_format (by decide) hword hformat).mpr ⟨by decide, ?_⟩).2
  exact List.forall_mem_singleton.mpr ⟨by decide, by decide⟩

/-- The value `a"b` is written as `a\"b` and read up to the quote. -/
theorem quote_cuts_value :
    format "Bearer".toList [("error".toList, "a\"b".toList)]
        = .ok "Bearer error=\"a\\\"b\"".toList ∧
      ∃ challenge, parse (some "Bearer error=\"a\\\"b\"".toList) = some challenge ∧
        challenge.params.lookup "error".toList = some "a\\".toList :=
  ⟨rfl, _, rfl, by decide⟩

end NoizuMcp.Auth.WwwAuthenticate
