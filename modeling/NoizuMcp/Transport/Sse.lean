import Mathlib.Tactic.FinCases
import NoizuMcp.Foundation.Splitting

/-!
# Server-sent events

`Noizu.MCP.Transport.SSE`: events as text, and the incremental parser. A byte is the
character with its number, so a chunk may end inside an encoded character.

The encoder writes one line for each line of the data; the parser drops a carriage return
before each line feed and all spaces after the colon. An event comes back as `seen`,
however the text is cut into chunks (`parseAll_encode`), and as it was just if none of its
lines ends in a carriage return or begins with a space (`round_trip_iff_plain`).
-/

set_option autoImplicit false

namespace NoizuMcp.Transport.Sse

open Foundation (Separator)

abbrev Text := List Char

/-- An event of a stream. -/
structure Event where
  id : Option Text := none
  event : Option Text := none
  data : Text := []
  retry : Option Int := none
  deriving DecidableEq

/-! ## Encoding -/

/-- A field without its line feed. -/
def field (name : String) (value : Text) : Text := name.toList ++ ':' :: ' ' :: value

/-- The lines of an event. -/
def Event.lines (e : Event) : List Text :=
  (e.id.map (field "id")).toList ++ (e.event.map (field "event")).toList ++
    (e.retry.map fun retry => field "retry" (toString retry).toList).toList ++
    (e.data.splitOn '\n').map (field "data")

/-- The lines of the event, and an empty one. -/
def Event.encode (e : Event) : Text := e.lines.flatMap (· ++ ['\n']) ++ ['\n']

/-! ## Parsing -/

/-- `\r?\n`. -/
def newlineLength : Text → Nat
  | '\r' :: '\n' :: _ => 2
  | '\n' :: _ => 1
  | _ => 0

/-- `\r?\n\r?\n`. -/
def blankLength (text : Text) : Nat :=
  if newlineLength text = 0 ∨ newlineLength (text.drop (newlineLength text)) = 0 then 0
  else newlineLength text + newlineLength (text.drop (newlineLength text))

/-- `Integer.parse/1`: an optional sign, digits, and what follows them. -/
def integerParse : Text → Option (Int × Text)
  | '-' :: chars => (digits chars).map fun parsed => (-parsed.1, parsed.2)
  | '+' :: chars => (digits chars).map fun parsed => (parsed.1, parsed.2)
  | chars => (digits chars).map fun parsed => (parsed.1, parsed.2)
where
  digits (chars : Text) : Option (Nat × Text) :=
    if (chars.takeWhile Char.isDigit).isEmpty then none
    else some (Nat.ofDigitChars 10 (chars.takeWhile Char.isDigit) 0, chars.dropWhile Char.isDigit)

/-- `String.trim/1`. -/
def trim (text : Text) : Text :=
  ((text.dropWhile Char.isWhitespace).reverse.dropWhile Char.isWhitespace).reverse

/-- `String.trim_leading(value, " ")`. -/
def trimLeading (value : Text) : Text := value.dropWhile (· = ' ')

/-- The fields read so far; `data` has the last line first. -/
structure Fields where
  data : List Text := []
  id : Option Text := none
  event : Option Text := none
  retry : Option Int := none

/-- `parse_retry/2`: a value that is not a number alone is ignored. -/
def parseRetry (acc : Fields) (value : Text) : Fields :=
  match integerParse (trim value) with
  | some (retry, []) => { acc with retry := some retry }
  | _ => acc

/-- One line of an event; a comment changes nothing. -/
def readLine (acc : Fields) : Text → Fields
  | ':' :: _ => acc
  | 'd' :: 'a' :: 't' :: 'a' :: ':' :: value => { acc with data := trimLeading value :: acc.data }
  | ['d', 'a', 't', 'a'] => { acc with data := [] :: acc.data }
  | 'i' :: 'd' :: ':' :: value => { acc with id := some (trimLeading value) }
  | 'e' :: 'v' :: 'e' :: 'n' :: 't' :: ':' :: value =>
    { acc with event := some (trimLeading value) }
  | 'r' :: 'e' :: 't' :: 'r' :: 'y' :: ':' :: value => parseRetry acc value
  | _ => acc

/-- The event of the fields of a block; a block without data is none. -/
def Fields.toEvent (fields : Fields) : Option Event :=
  match fields.data with
  | [] => none
  | data => some
      { id := fields.id
        event := fields.event
        retry := fields.retry
        data := ['\n'].intercalate data.reverse }

/-! ## Separators -/

variable {line more text : Text}

theorem newlineLength_eq_zero {c : Char} (hlf : c ≠ '\n') (h : c ≠ '\r' ∨ text.head? ≠ some '\n') :
    newlineLength (c :: text) = 0 := by
  unfold newlineLength
  split
  case h_1 heq =>
    obtain ⟨rfl, rfl⟩ := List.cons.inj heq
    rcases h with h | h
    · exact absurd rfl h
    · exact absurd rfl h
  case h_2 heq => exact absurd (List.cons.inj heq).1 hlf
  case h_3 => rfl

/-- What the head of a text is if there is a line break. -/
theorem newline_cases (text : Text) :
    (∃ rest, text = '\r' :: '\n' :: rest) ∨ (∃ rest, text = '\n' :: rest) ∨
      newlineLength text = 0 := by
  unfold newlineLength
  split
  case h_1 rest => exact .inl ⟨rest, rfl⟩
  case h_2 rest => exact .inr (.inl ⟨rest, rfl⟩)
  case h_3 => exact .inr (.inr rfl)

theorem newlineLength_le (text : Text) : newlineLength text ≤ text.length := by
  rcases newline_cases text with ⟨rest, rfl⟩ | ⟨rest, rfl⟩ | h
  · exact Nat.le_add_left 2 rest.length
  · exact Nat.le_add_left 1 rest.length
  · rw [h]
    exact Nat.zero_le _

theorem newlineLength_append (h : newlineLength text ≠ 0) (more : Text) :
    newlineLength (text ++ more) = newlineLength text := by
  rcases newline_cases text with ⟨rest, rfl⟩ | ⟨rest, rfl⟩ | hnone
  · rfl
  · rfl
  · exact absurd hnone h

/-- A line break that more text completes. -/
theorem newline_late (hnone : newlineLength text = 0) (hsome : newlineLength (text ++ more) ≠ 0) :
    text = [] ∨ text = ['\r'] := by
  cases text with
  | nil => exact .inl rfl
  | cons c text =>
    right
    rcases newline_cases (c :: text ++ more) with ⟨rest, heq⟩ | ⟨rest, heq⟩ | h
    · obtain ⟨rfl, htail⟩ := List.cons.inj heq
      cases text with
      | nil => rfl
      | cons =>
        obtain ⟨rfl, _⟩ := List.cons.inj htail
        cases hnone
    · obtain ⟨rfl, _⟩ := List.cons.inj heq
      cases hnone
    · exact absurd h hsome

/-- The parts of a block. -/
def newline : Separator Char where
  length := newlineLength
  length_le := newlineLength_le
  stable := fun _ more h => newlineLength_append h more
  late := by
    intro text more hnone hsome part hpart
    rcases newline_late hnone hsome with rfl | rfl
    · rw [List.suffix_nil.mp hpart]
      rfl
    · rcases List.suffix_cons_iff.mp hpart with rfl | hpart
      · rfl
      · rw [List.suffix_nil.mp hpart]
        rfl

/-- A line break at the head, and then none or another one. -/
theorem blank_cases (text : Text) :
    blankLength text = 0 ∨ newlineLength text ≠ 0 ∧
      newlineLength (text.drop (newlineLength text)) ≠ 0 ∧
      blankLength text = newlineLength text + newlineLength (text.drop (newlineLength text)) := by
  unfold blankLength
  split
  case isTrue => exact .inl rfl
  case isFalse h =>
    rw [not_or] at h
    exact .inr ⟨h.1, h.2, rfl⟩

theorem blankLength_of_newline (h : newlineLength text = 0) : blankLength text = 0 := if_pos (.inl h)

theorem count_of_newline (h : newlineLength text ≠ 0) :
    text.count '\n' = (text.drop (newlineLength text)).count '\n' + 1 := by
  rcases newline_cases text with ⟨rest, rfl⟩ | ⟨rest, rfl⟩ | hnone
  · simp [newlineLength]
  · simp [newlineLength]
  · exact absurd hnone h

/-- Without two line feeds there is no blank line. -/
theorem blankLength_of_count (h : text.count '\n' ≤ 1) : blankLength text = 0 := by
  rcases blank_cases text with hnone | ⟨hfirst, hsecond, _⟩
  · exact hnone
  · have hone := count_of_newline hfirst
    have htwo := count_of_newline hsecond
    omega

/-- A blank line that more text completes. -/
theorem blank_late (hnone : blankLength text = 0) (hsome : blankLength (text ++ more) ≠ 0) :
    text.count '\n' ≤ 1 := by
  rcases blank_cases (text ++ more) with h | ⟨hfirst, hsecond, _⟩
  · exact absurd h hsome
  · by_cases hhead : newlineLength text = 0
    · rcases newline_late hhead hfirst with rfl | rfl
      · exact Nat.zero_le _
      · decide
    · -- the first line break is there, and the second one is not
      have hlength := newlineLength_append hhead more
      have hle := newlineLength_le text
      rw [hlength, List.drop_append_of_le_length hle] at hsecond
      have hnext : newlineLength (text.drop (newlineLength text)) = 0 := by
        rcases blank_cases text with hblank | ⟨_, hboth, hsum⟩
        · unfold blankLength at hblank
          split at hblank
          case isTrue h => exact h.resolve_left hhead
          case isFalse => omega
        · omega
      rw [count_of_newline hhead]
      rcases newline_late hnext hsecond with hrest | hrest
      · rw [hrest]
        decide
      · rw [hrest]
        decide

/-- The blocks of a stream. -/
def blank : Separator Char where
  length := blankLength
  length_le := by
    intro text
    rcases blank_cases text with h | ⟨_, _, h⟩
    · rw [h]
      exact Nat.zero_le _
    · have hfirst := newlineLength_le text
      have hsecond := newlineLength_le (text.drop (newlineLength text))
      rw [List.length_drop] at hsecond
      rw [h]
      omega
  stable := by
    intro text more hsome
    rcases blank_cases text with h | ⟨hfirst, hsecond, _⟩
    · exact absurd h hsome
    · unfold blankLength
      rw [newlineLength_append hfirst, List.drop_append_of_le_length (newlineLength_le text),
        newlineLength_append hsecond]
  late := by
    intro text more hnone hsome part hpart
    refine blankLength_of_count (Nat.le_trans ?_ (blank_late hnone hsome))
    exact hpart.sublist.count_le '\n'

/-- The event of a block of lines, if it makes one. -/
def parseEvent (block : Text) : Option Event :=
  ((newline.split block).foldl readLine {}).toEvent

/-- `parse/2`: the events that the chunk completes, and the new buffer. -/
def parse (buffer chunk : Text) : List Event × Text :=
  ((blank.complete (buffer ++ chunk)).filterMap parseEvent, blank.rest (buffer ++ chunk))

/-- The parser over chunks, from a buffer on. -/
def parseAll : Text → List Text → List Event × Text
  | buffer, [] => ([], buffer)
  | buffer, chunk :: chunks =>
    let now := parse buffer chunk
    let later := parseAll now.2 chunks
    (now.1 ++ later.1, later.2)

/-! ## The blocks of an encoding -/

/-- A line without the carriage return at its end. -/
def stripCr : Text → Text
  | [] => []
  | [c] => if c = '\r' then [] else [c]
  | c :: d :: line => c :: stripCr (d :: line)

theorem stripCr_cons {c : Char} (h : ¬(c = '\r' ∧ line = [])) :
    stripCr (c :: line) = c :: stripCr line := by
  cases line with
  | nil => exact if_neg fun hc => h ⟨hc, rfl⟩
  | cons => rfl

/-- Inside a line there is a line break only before its last carriage return. -/
theorem newlineLength_line {c : Char} (hlf : '\n' ∉ c :: line) (h : ¬(c = '\r' ∧ line = []))
    (text : Text) : newlineLength (c :: (line ++ '\n' :: text)) = 0 := by
  obtain ⟨hc, hline⟩ := not_or.mp (mt List.mem_cons.mpr hlf)
  refine newlineLength_eq_zero (Ne.symm hc) ?_
  cases line with
  | nil => exact .inl fun hcr => h ⟨hcr, rfl⟩
  | cons => exact .inr fun heq => hline (Option.some.inj heq ▸ List.mem_cons_self)

/-- A line up to where the separator begins: at its line feed, or at the carriage return
before it. -/
theorem split_line {sep : Separator Char} {parts : List Text}
    (hsep : ∀ text, newlineLength text = 0 → sep.length text = 0)
    (hlf : sep.split ('\n' :: text) = [] :: parts)
    (hcr : sep.split ('\r' :: '\n' :: text) = [] :: parts) (h : '\n' ∉ line) :
    sep.split (line ++ '\n' :: text) = stripCr line :: parts := by
  induction line with
  | nil => exact hlf
  | cons c line ih =>
    by_cases hlast : c = '\r' ∧ line = []
    · rw [hlast.1, hlast.2]
      exact hcr
    · have hnone := hsep _ (newlineLength_line h hlast text)
      rw [List.cons_append, Separator.split_cons hnone,
        ih fun hmem => h (List.mem_cons_of_mem c hmem), stripCr_cons hlast]
      rfl

theorem newline_split_line (h : '\n' ∉ line) (text : Text) :
    newline.split (line ++ '\n' :: text) = stripCr line :: newline.split text :=
  split_line (fun _ hnone => hnone) (Separator.split_separator (Nat.succ_ne_zero 0))
    (Separator.split_separator (Nat.succ_ne_zero 1)) h

theorem newlineLength_of_not_mem (h : '\n' ∉ line) : newlineLength line = 0 := by
  rcases newline_cases line with ⟨rest, rfl⟩ | ⟨rest, rfl⟩ | hnone
  · exact absurd (List.mem_cons_of_mem _ List.mem_cons_self) h
  · exact absurd List.mem_cons_self h
  · exact hnone

/-- A field is not empty and does not begin with a line break. -/
def Fielded (line : Text) : Prop :=
  '\n' ∉ line ∧ ∃ c rest, line = c :: rest ∧ c ≠ '\r'

/-- The block of some lines: the separator takes the carriage return of the last one. -/
def blockOf : List Text → Text
  | [] => []
  | [line] => stripCr line
  | line :: next :: lines => line ++ '\n' :: blockOf (next :: lines)

/-- A line feed before another field does not end the block. -/
theorem blank_split_line (h : '\n' ∉ line) (htext : newlineLength text = 0) :
    blank.split (line ++ '\n' :: text) =
      (blank.split text).modifyHead (line ++ '\n' :: ·) := by
  induction line with
  | nil =>
    refine Separator.split_cons ?_
    exact if_pos (.inr htext)
  | cons c line ih =>
    have hnone : blank.length (c :: (line ++ '\n' :: text)) = 0 := by
      by_cases hlast : c = '\r' ∧ line = []
      · rw [hlast.1, hlast.2]
        exact if_pos (.inr htext)
      · exact blankLength_of_newline (newlineLength_line h hlast text)
    rw [List.cons_append, Separator.split_cons hnone,
      ih fun hmem => h (List.mem_cons_of_mem c hmem)]
    cases blank.split text with
    | nil => rfl
    | cons => rfl

theorem blank_split_last (h : '\n' ∉ line) (text : Text) :
    blank.split (line ++ '\n' :: '\n' :: text) = stripCr line :: blank.split text :=
  split_line (fun _ => blankLength_of_newline) (Separator.split_separator (Nat.succ_ne_zero 1))
    (Separator.split_separator (Nat.succ_ne_zero 2)) h

/-- The lines of an event are one block. -/
theorem blank_split_lines {lines : List Text} (hne : lines ≠ [])
    (h : ∀ line ∈ lines, Fielded line) (text : Text) :
    blank.split (lines.flatMap (· ++ ['\n']) ++ '\n' :: text) =
      blockOf lines :: blank.split text := by
  induction lines with
  | nil => exact absurd rfl hne
  | cons line lines ih =>
    have hline := h line List.mem_cons_self
    cases lines with
    | nil =>
      rw [List.flatMap_cons, List.flatMap_nil, List.append_nil, List.append_assoc]
      exact blank_split_last hline.1 text
    | cons next lines =>
      obtain ⟨hlf, c, rest, heq, hcr⟩ := h next (List.mem_cons_of_mem _ List.mem_cons_self)
      have hnext := ih (List.cons_ne_nil _ _)
        fun line hmem => h line (List.mem_cons_of_mem _ hmem)
      -- the next field begins with a letter
      have hhead :
          newlineLength ((next :: lines).flatMap (· ++ ['\n']) ++ '\n' :: text) = 0 := by
        rw [heq]
        refine newlineLength_eq_zero ?_ (.inl hcr)
        exact fun hc => hlf (heq ▸ hc ▸ List.mem_cons_self)
      rw [List.flatMap_cons, List.append_assoc, List.append_assoc, List.singleton_append,
        blank_split_line hline.1 hhead, hnext]
      rfl

theorem stripCr_sublist (line : Text) : (stripCr line).Sublist line := by
  induction line with
  | nil => exact .slnil
  | cons c line ih =>
    by_cases hlast : c = '\r' ∧ line = []
    · rw [hlast.1, hlast.2]
      exact List.nil_sublist _
    · rw [stripCr_cons hlast]
      exact ih.cons_cons c

/-- The lines of a block as the parser sees them. -/
theorem newline_split_blockOf {lines : List Text} (hne : lines ≠ [])
    (h : ∀ line ∈ lines, '\n' ∉ line) :
    newline.split (blockOf lines) = lines.map stripCr := by
  induction lines with
  | nil => exact absurd rfl hne
  | cons line lines ih =>
    have hline := h line List.mem_cons_self
    cases lines with
    | nil =>
      refine Separator.split_of_none fun zs hzs => newlineLength_of_not_mem fun hmem => ?_
      exact hline ((stripCr_sublist line).subset (hzs.subset hmem))
    | cons =>
      rw [blockOf, newline_split_line hline, ih (List.cons_ne_nil _ _) fun line hmem =>
        h line (List.mem_cons_of_mem _ hmem)]
      rfl

/-! ## The fields of an event -/

/-- A value as the parser reads it. -/
def clean (value : Text) : Text := trimLeading (stripCr value)

/-- An event as the parser reads it. -/
def Event.seen (e : Event) : Event where
  id := e.id.map clean
  event := e.event.map clean
  data := ['\n'].intercalate ((e.data.splitOn '\n').map clean)

/-- No field of the event holds a line break, and `retry` is not set. -/
structure Event.Sendable (e : Event) : Prop where
  id : ∀ id ∈ e.id, '\n' ∉ id ∧ '\r' ∉ id
  event : ∀ event ∈ e.event, '\n' ∉ event ∧ '\r' ∉ event
  retry : e.retry = none

/-- The name of a field stays as it is. -/
theorem stripCr_field {name : String} (h : '\r' ∉ name.toList ++ [':', ' ']) (value : Text) :
    stripCr (field name value) = field name (stripCr value) := by
  have hfield : ∀ value, field name value = name.toList ++ [':', ' '] ++ value := fun value => by
    rw [List.append_assoc]
    rfl
  rw [hfield, hfield]
  generalize name.toList ++ [':', ' '] = first at h ⊢
  induction first with
  | nil => rfl
  | cons c _ ih =>
    obtain ⟨hc, hfirst⟩ := not_or.mp (mt List.mem_cons.mpr h)
    rw [List.cons_append, stripCr_cons fun hlast => hc hlast.1.symm, ih hfirst]
    rfl

/-- The lines of data, last one first. -/
theorem foldl_data (acc : Fields) (values : List Text) :
    ((values.map (field "data")).map stripCr).foldl readLine acc =
      { acc with data := (values.map clean).reverse ++ acc.data } := by
  induction values generalizing acc with
  | nil => rfl
  | cons _ _ ih =>
    rw [List.map_cons, List.map_cons, List.foldl_cons, stripCr_field (by decide), ih,
      List.map_cons, List.reverse_cons, List.append_assoc]
    rfl

/-- A field that an event may have. -/
theorem foldl_option {name : String} (hname : '\r' ∉ name.toList ++ [':', ' '])
    (fields : Option Text → Fields)
    (hread : ∀ value, readLine (fields none) (field name value) = fields (some (trimLeading value)))
    (value : Option Text) :
    ((value.map (field name)).toList.map stripCr).foldl readLine (fields none) =
      fields (value.map clean) := by
  cases value with
  | none => rfl
  | some value =>
    change readLine (fields none) (stripCr (field name value)) = _
    rw [stripCr_field hname, hread]
    rfl

theorem Event.lines_ne_nil (e : Event) : e.lines ≠ [] := by
  intro heq
  have hdata := (List.append_eq_nil_iff.mp heq).2
  exact List.splitOn_ne_nil '\n' e.data (List.map_eq_nil_iff.mp hdata)

theorem parseEvent_blockOf {e : Event} (hlines : ∀ line ∈ e.lines, '\n' ∉ line)
    (hretry : e.retry = none) : parseEvent (blockOf e.lines) = some e.seen := by
  unfold parseEvent
  rw [newline_split_blockOf e.lines_ne_nil hlines]
  unfold Event.lines
  rw [hretry]
  simp only [List.map_append, List.foldl_append, Option.map_none, Option.toList_none,
    List.map_nil, List.foldl_nil, foldl_data]
  have hid : '\r' ∉ "id".toList ++ [':', ' '] := by decide
  have hevent : '\r' ∉ "event".toList ++ [':', ' '] := by decide
  rw [foldl_option hid (fun id => { id }) fun _ => rfl,
    foldl_option hevent (fun event => { id := e.id.map clean, event }) fun _ => rfl]
  unfold Fields.toEvent Event.seen
  cases hdata : (e.data.splitOn '\n').map clean with
  | nil => exact absurd (List.map_eq_nil_iff.mp hdata) (List.splitOn_ne_nil '\n' e.data)
  | cons =>
    rw [List.append_nil]
    split
    case h_1 heq => exact absurd (List.reverse_eq_nil_iff.mp heq) (List.cons_ne_nil _ _)
    case h_2 => rw [List.reverse_reverse]

theorem not_mem_of_splitOn {data : Text} (h : line ∈ data.splitOn '\n') : '\n' ∉ line := by
  induction data generalizing line with
  | nil =>
    rw [List.splitOn_nil, List.mem_singleton] at h
    rw [h]
    exact List.not_mem_nil
  | cons c data ih =>
    rw [List.splitOn_cons_eq_if_modifyHead] at h
    split at h
    case isTrue =>
      rcases List.mem_cons.mp h with rfl | hmem
      · exact List.not_mem_nil
      · exact ih hmem
    case isFalse hc =>
      cases hsplit : data.splitOn '\n' with
      | nil => exact absurd hsplit (List.splitOn_ne_nil '\n' data)
      | cons =>
        rw [hsplit] at h ih
        rcases List.mem_cons.mp h with rfl | hmem
        · rw [List.mem_cons, not_or]
          exact ⟨fun heq => hc (beq_iff_eq.mpr heq.symm), ih List.mem_cons_self⟩
        · exact ih (List.mem_cons_of_mem _ hmem)

theorem fielded_field {name : String} {value : Text} (hname : Fielded (name.toList ++ [':']))
    (hvalue : '\n' ∉ value) : Fielded (field name value) := by
  obtain ⟨hlf, c, rest, heq, hcr⟩ := hname
  have hfield : field name value = (name.toList ++ [':']) ++ ' ' :: value := by
    rw [List.append_assoc]
    rfl
  refine ⟨?_, c, rest ++ ' ' :: value, ?_, hcr⟩
  · rw [hfield, List.mem_append, not_or, List.mem_cons, not_or]
    exact ⟨hlf, by decide, hvalue⟩
  · rw [hfield, heq]
    rfl

theorem Event.Sendable.lines {e : Event} (h : e.Sendable) : ∀ line ∈ e.lines, Fielded line := by
  intro line hline
  unfold Event.lines at hline
  rw [h.retry, Option.map_none, Option.toList_none, List.append_nil] at hline
  rcases List.mem_append.mp hline with hfields | hdata
  · rcases List.mem_append.mp hfields with hid | hevent
    · obtain ⟨id, hsome, rfl⟩ := Option.map_eq_some_iff.mp (Option.mem_toList.mp hid)
      exact fielded_field ⟨by decide, 'i', _, rfl, by decide⟩ (h.id id hsome).1
    · obtain ⟨event, hsome, rfl⟩ := Option.map_eq_some_iff.mp (Option.mem_toList.mp hevent)
      exact fielded_field ⟨by decide, 'e', _, rfl, by decide⟩ (h.event event hsome).1
  · obtain ⟨value, hvalue, rfl⟩ := List.mem_map.mp hdata
    exact fielded_field ⟨by decide, 'd', _, rfl, by decide⟩ (not_mem_of_splitOn hvalue)

/-! ## Chunks -/

theorem parseAll_eq (buffer : Text) (chunks : List Text) :
    parseAll buffer chunks =
      ((blank.feed buffer chunks).1.filterMap parseEvent, (blank.feed buffer chunks).2) := by
  induction chunks generalizing buffer with
  | nil => rfl
  | cons _ _ ih =>
    unfold parseAll Separator.feed parse
    dsimp only
    rw [ih, List.filterMap_append]

theorem blank_split_encode {events : List Event} (h : ∀ e ∈ events, e.Sendable) :
    blank.split (events.flatMap Event.encode) =
      (events.map fun e => blockOf e.lines) ++ [[]] := by
  induction events with
  | nil => rfl
  | cons e _ ih =>
    have he := h e List.mem_cons_self
    rw [List.flatMap_cons, Event.encode, List.append_assoc, List.singleton_append,
      blank_split_lines e.lines_ne_nil he.lines,
      ih fun e' he' => h e' (List.mem_cons_of_mem _ he')]
    rfl

/-- The blocks of a text are read one by one, however the text is cut. -/
theorem parseAll_of_split {chunks parts : List Text} {rest : Text}
    (h : blank.split chunks.flatten = parts ++ [rest]) :
    parseAll [] chunks = (parts.filterMap parseEvent, rest) := by
  have hempty : blank.split [] = [[]] := Separator.split_nil
  have hfeed := Separator.feed_eq hempty chunks
  rw [List.nil_append, h] at hfeed
  obtain ⟨hblocks, hrest⟩ := List.append_inj' hfeed rfl
  rw [parseAll_eq, hblocks, List.singleton_inj.mp hrest]

/-- A text that arrives in chunks is read as the whole text: the same events come out, and the
same rest is carried on. -/
theorem parseAll_chunks (chunks : List Text) : parseAll [] chunks = parse [] chunks.flatten :=
  parseAll_of_split (Separator.complete_append_rest chunks.flatten).symm

/-- However the text is cut, the parser yields every event as it is seen, and nothing is
left over. -/
theorem parseAll_encode {events : List Event} (h : ∀ e ∈ events, e.Sendable)
    {chunks : List Text} (hchunks : chunks.flatten = events.flatMap Event.encode) :
    parseAll [] chunks = (events.map Event.seen, []) := by
  have hsplit := blank_split_encode h
  rw [← hchunks] at hsplit
  rw [parseAll_of_split hsplit, List.filterMap_map]
  refine congrArg (·, []) ?_
  rw [← List.filterMap_eq_map]
  refine List.filterMap_congr fun e he => ?_
  exact parseEvent_blockOf (fun line hline => ((h e he).lines line hline).1) (h e he).retry

/-! ## The round trip -/

/-- A line that the parser reads as it is. -/
def PlainLine (line : Text) : Prop := line.head? ≠ some ' ' ∧ line.getLast? ≠ some '\r'

instance (line : Text) : Decidable (PlainLine line) :=
  inferInstanceAs (Decidable (_ ∧ _))

/-- Every line of the event is read as it is. -/
structure Event.Plain (e : Event) : Prop where
  id : ∀ id ∈ e.id, id.head? ≠ some ' '
  event : ∀ event ∈ e.event, event.head? ≠ some ' '
  data : ∀ line ∈ e.data.splitOn '\n', PlainLine line

theorem stripCr_eq_iff (line : Text) : stripCr line = line ↔ line.getLast? ≠ some '\r' := by
  induction line with
  | nil => exact iff_of_true rfl nofun
  | cons c line ih =>
    cases line with
    | nil =>
      unfold stripCr
      split
      case isTrue hc => exact iff_of_false nofun fun h => h (congrArg some hc)
      case isFalse hc => exact iff_of_true rfl fun h => hc (Option.some.inj h)
    | cons => rw [stripCr, List.cons_inj_right, ih, List.getLast?_cons_cons]

theorem trimLeading_eq_iff (line : Text) : trimLeading line = line ↔ line.head? ≠ some ' ' := by
  cases line with
  | nil => exact iff_of_true rfl nofun
  | cons c line =>
    unfold trimLeading
    rw [List.dropWhile_cons]
    split
    case isTrue hc =>
      refine iff_of_false (fun heq => ?_) fun h => h (congrArg some (of_decide_eq_true hc))
      -- what is left is shorter
      have hle := (List.dropWhile_sublist (l := line) fun d => decide (d = ' ')).length_le
      rw [heq] at hle
      exact Nat.not_succ_le_self _ hle
    case isFalse hc => exact iff_of_true rfl fun h => hc (decide_eq_true (Option.some.inj h))

theorem clean_eq_iff (line : Text) : clean line = line ↔ PlainLine line := by
  unfold clean PlainLine
  constructor
  · intro h
    -- neither of the two steps can shorten the line
    have hsame : stripCr line = line := by
      have hsub : (trimLeading (stripCr line)).Sublist (stripCr line) := List.dropWhile_sublist _
      rw [h] at hsub
      exact (hsub.eq_of_length_le (stripCr_sublist line).length_le).symm
    rw [hsame] at h
    exact ⟨(trimLeading_eq_iff line).mp h, (stripCr_eq_iff line).mp hsame⟩
  · rintro ⟨hhead, hlast⟩
    rw [(stripCr_eq_iff line).mpr hlast, (trimLeading_eq_iff line).mpr hhead]

theorem map_clean_eq_iff {value : Option Text} (h : ∀ text ∈ value, '\r' ∉ text) :
    value.map clean = value ↔ ∀ text ∈ value, text.head? ≠ some ' ' := by
  cases value with
  | none => exact iff_of_true rfl nofun
  | some text =>
    have hlast : text.getLast? ≠ some '\r' := fun heq => h text rfl (List.mem_of_getLast? heq)
    rw [Option.map_some, Option.some_inj, clean_eq_iff]
    constructor
    · intro hplain other hother
      rw [← Option.mem_some.mp hother]
      exact hplain.1
    · intro hhead
      exact ⟨hhead text rfl, hlast⟩

theorem map_eq_self_iff {β : Type} {f : β → β} {list : List β} :
    list.map f = list ↔ ∀ b ∈ list, f b = b := by
  have hiff := List.map_inj_left (l := list) (f := f) (g := id)
  rwa [List.map_id] at hiff

theorem not_mem_clean (h : '\n' ∉ line) : '\n' ∉ clean line := fun hmem =>
  h ((stripCr_sublist line).subset ((List.dropWhile_sublist _).subset hmem))

theorem data_eq_iff (data : Text) :
    ['\n'].intercalate ((data.splitOn '\n').map clean) = data ↔
      ∀ line ∈ data.splitOn '\n', PlainLine line := by
  have hlines : ∀ line ∈ (data.splitOn '\n').map clean, '\n' ∉ line := by
    intro line hline
    obtain ⟨raw, hraw, rfl⟩ := List.mem_map.mp hline
    exact not_mem_clean (not_mem_of_splitOn hraw)
  have hne : (data.splitOn '\n').map clean ≠ [] := fun heq =>
    List.splitOn_ne_nil '\n' data (List.map_eq_nil_iff.mp heq)
  constructor
  · intro h line hline
    have hsplit := List.splitOn_intercalate '\n' hlines hne
    rw [h] at hsplit
    exact (clean_eq_iff line).mp (map_eq_self_iff.mp hsplit.symm line hline)
  · intro h
    have hsame : (data.splitOn '\n').map clean = data.splitOn '\n' :=
      map_eq_self_iff.mpr fun line hline => (clean_eq_iff line).mpr (h line hline)
    rw [hsame, List.intercalate_splitOn]

theorem Event.seen_eq_iff {e : Event} (h : e.Sendable) : e.seen = e ↔ e.Plain := by
  have hid := map_clean_eq_iff fun id hmem => (h.id id hmem).2
  have hevent := map_clean_eq_iff fun event hmem => (h.event event hmem).2
  have hdata := data_eq_iff e.data
  have hretry := h.retry
  constructor
  · intro hseen
    exact ⟨hid.mp (congrArg Event.id hseen), hevent.mp (congrArg Event.event hseen),
      hdata.mp (congrArg Event.data hseen)⟩
  · rintro ⟨hplain, hplain', hplain''⟩
    unfold Event.seen
    rw [hid.mpr hplain, hevent.mpr hplain', hdata.mpr hplain'', ← hretry]

/-- Events come back as they were, for each way of cutting their text, just if the parser
reads every line of them as it is. -/
theorem round_trip_iff_plain {events : List Event} (h : ∀ e ∈ events, e.Sendable)
    {chunks : List Text} (hchunks : chunks.flatten = events.flatMap Event.encode) :
    (parseAll [] chunks).1 = events ↔ ∀ e ∈ events, e.Plain := by
  rw [parseAll_encode h hchunks]
  constructor
  · intro heq e he
    exact (Event.seen_eq_iff (h e he)).mp (map_eq_self_iff.mp heq e he)
  · intro hplain
    exact map_eq_self_iff.mpr fun e he => (Event.seen_eq_iff (h e he)).mpr (hplain e he)

/-- Two events. -/
def ticks : List Event :=
  [{ id := some "1".toList, data := "a\nb".toList },
   { id := some "2".toList, event := some "message".toList, data := "\n".toList }]

/-- They come back from their text, one byte at a time. -/
theorem round_trip_ticks :
    (parseAll [] ((ticks.flatMap Event.encode).map fun c => [c])).1 = ticks := by
  have hsendable : ∀ e ∈ ticks, e.Sendable := by
    intro e he
    fin_cases he <;> exact ⟨by decide, by decide, rfl⟩
  have hflatten : ((ticks.flatMap Event.encode).map fun c => [c]).flatten =
      ticks.flatMap Event.encode := by decide
  refine (round_trip_iff_plain hsendable hflatten).mpr fun e he => ?_
  fin_cases he <;> exact ⟨by decide, by decide, by decide⟩

/-- Data that is indented. -/
def indented : Event := { data := "  x".toList }

/-- It loses its spaces, in one chunk. -/
theorem indented_trimmed :
    indented.Sendable ∧ (parseAll [] [indented.encode]).1 = [{ data := "x".toList }] :=
  ⟨⟨by decide, by decide, rfl⟩, by decide⟩

end NoizuMcp.Transport.Sse
