import Mathlib.Data.List.Basic

/-!
# Offset cursors

`Noizu.MCP.Server.Features.Pagination`: a page of a list by a cursor that holds an offset.
The texts of numbers and the URL-safe base 64 are those of the Elixir library, taken as a
parameter with the facts about them that matter here.
-/

set_option autoImplicit false

namespace NoizuMcp.Server.Pagination

abbrev Text := List Char

/-- `Base.url_encode64/2`, `Base.url_decode64/2`, `Integer.parse/1` and the text of an
integer. -/
structure Texts where
  encode64 : Text → Text
  decode64 : Text → Option Text
  print : Int → Text
  parse : Text → Option (Int × Text)
  parse_print : ∀ n, parse (print n) = some (n, [])
  decode_encode : ∀ n, decode64 (encode64 ('o' :: ':' :: print n)) = some ('o' :: ':' :: print n)
  decode_nil : decode64 [] = some []
  /-- A text with a zero byte is not in base 64. -/
  decode_zero : ∀ text, '\x00' ∈ text → decode64 text = none

def defaultPageSize : Nat := 50

variable (texts : Texts)

/-- The opaque cursor of an offset. -/
def encodeCursor (offset : Int) : Text := texts.encode64 ('o' :: ':' :: texts.print offset)

/-- The offset of a cursor; none for a text that no cursor has. -/
def decodeCursor : Option Text → Option Int
  | none => some 0
  | some cursor =>
    match texts.decode64 cursor with
    | some ('o' :: ':' :: offset) =>
      match texts.parse offset with
      | some (n, []) => some n
      | _ => none
    | _ => none

/-- `Enum.slice/3`: a negative start counts from the end, and is the first item where it lies
before it (`max(count + start_index, 0)`). -/
def slice {α : Type} (items : List α) (start : Int) (amount : Nat) : List α :=
  if 0 ≤ start then (items.drop start.toNat).take amount
  else (items.drop (items.length + start).toNat).take amount

/-- `paginate/3`; `none` is the error "Invalid cursor". -/
def paginate {α : Type} (items : List α) (cursor : Option Text) (pageSize : Nat) :
    Option (List α × Option Text) :=
  (decodeCursor texts cursor).map fun offset =>
    (slice items offset pageSize,
      if offset + pageSize < items.length then some (encodeCursor texts (offset + pageSize))
      else none)

variable {texts}

@[simp] theorem decode_encodeCursor (offset : Int) :
    decodeCursor texts (some (encodeCursor texts offset)) = some offset := by
  simp [decodeCursor, encodeCursor, texts.decode_encode, texts.parse_print]

/-- Texts in which a number is a sign and as many ones. -/
def unaryTexts : Texts where
  encode64 text := text
  decode64 text := if '\x00' ∈ text then none else some text
  print
    | .ofNat n => '+' :: List.replicate n '1'
    | .negSucc n => '-' :: List.replicate (n + 1) '1'
  parse
    | '+' :: ones => some (ones.length, [])
    | '-' :: ones => some (-ones.length, [])
    | _ => none
  parse_print n := by
    cases n with
    | ofNat n => simp
    | negSucc n =>
      simp only [List.length_replicate]
      rfl
  decode_encode n := by
    have hzero : ∀ n, '\x00' ∉ List.replicate n '1' := fun n hmem =>
      absurd (List.eq_of_mem_replicate hmem) (by decide)
    cases n with
    | ofNat n => simp [hzero]
    | negSucc n => simp only [List.mem_cons, hzero, or_false]; simp
  decode_nil := rfl
  decode_zero text h := if_pos h

end NoizuMcp.Server.Pagination
