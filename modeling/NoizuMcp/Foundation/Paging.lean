import Mathlib.Data.List.Basic
import Mathlib.Logic.Relation

/-!
# Reading a list page by page

A reader asks for the first page, then for the page of each cursor it is given, until a
page comes without one or a request is not answered with a page. `Collected` says which
items such a reader has at the end, and after how many requests. The answer to a request
may be chosen by the other side (`ask` is a relation), so what holds of every collection
holds for pages of any size.
-/

set_option autoImplicit false

namespace NoizuMcp.Paging

variable {κ β : Type}

/-- What a request is answered with: the items of the page and the cursor of the next one,
or no page. -/
abbrev Reply (κ β : Type) := Option (List β × Option κ)

/-- `Collected ask cursor items calls`: reading on from `cursor` ends after `calls` requests,
with `items`. -/
inductive Collected (ask : Option κ → Reply κ β → Prop) : Option κ → List β → Nat → Prop
  | refused {cursor : Option κ} (h : ask cursor none) : Collected ask cursor [] 1
  | last {cursor : Option κ} {items : List β} (h : ask cursor (some (items, none))) :
      Collected ask cursor items 1
  | more {cursor : Option κ} {items rest : List β} {next : κ} {calls : Nat}
      (h : ask cursor (some (items, some next))) (hrest : Collected ask (some next) rest calls) :
      Collected ask cursor (items ++ rest) (calls + 1)

variable {cursor : Option κ} {items : List β} {calls : Nat}

/-- Where every request has one answer there is one collection. -/
theorem Collected.unique {answer : Option κ → Reply κ β} {others : List β} {more : Nat}
    (h : Collected (fun cursor page => answer cursor = page) cursor items calls)
    (h' : Collected (fun cursor page => answer cursor = page) cursor others more) :
    items = others := by
  induction h generalizing others more with
  | refused h =>
    cases h' with
    | refused => rfl
    | last h' | more h' => cases h.symm.trans h'
  | last h =>
    cases h' with
    | refused h' | more h' => cases h.symm.trans h'
    | last h' =>
      cases h.symm.trans h'
      rfl
  | more h _ ih =>
    cases h' with
    | refused h' | last h' => cases h.symm.trans h'
    | more h' hrest =>
      cases h.symm.trans h'
      rw [ih hrest]

end NoizuMcp.Paging
