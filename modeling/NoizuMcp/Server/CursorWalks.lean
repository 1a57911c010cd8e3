import NoizuMcp.Foundation.Paging
import NoizuMcp.Server.Catalog

/-!
# Walks over offset cursors

A client that asks without a cursor and then with every cursor it is given reads a list page
by page. The list methods and `sql/scan` page in the same way: a cursor holds a number, the
page is a slice from that number on, and the next cursor holds the number plus the page size
as long as that is short of the list's end (`OffsetPager`). `VisitsOnce` says what such a walk
reads, from the start and from any cursor that a client makes up.

`Enum.slice/3` counts a negative number from the end of the list, but the next cursor is
computed as for any other number. So a walk from a negative number reads the end of the list,
comes past zero and reads the end again (`reads_twice`), unless its first page is the last.
-/

set_option autoImplicit false

namespace NoizuMcp.Server.CursorWalks

open Paging (Reply Collected)

open Pagination (Text Texts slice paginate decodeCursor encodeCursor decode_encodeCursor unaryTexts)

open Catalog (Host Relation page offset encodeOffset defaultLimit)

open Sql (RowMap)

variable {κ β : Type}

/-! ## Pagers -/

/-- The number that a cursor holds, and the cursor of a number. -/
structure OffsetPager (κ : Type) where
  offset : Option κ → Option Int
  code : Int → κ
  offset_none : offset none = some 0
  offset_code : ∀ n, offset (some (code n)) = some n

/-- The answer to a request; `none` where the cursor holds no number. -/
def OffsetPager.page (pager : OffsetPager κ) (all : List β) (size : Nat) (cursor : Option κ) :
    Reply κ β :=
  (pager.offset cursor).map fun n =>
    (slice all n size, if n + size < all.length then some (pager.code (n + size)) else none)

/-- The cursor holds no negative number whose page is followed by another one; in an empty list
none matters. -/
def Forward (offset : Option κ → Option Int) (all : List β) (size : Nat) (cursor : Option κ) :
    Prop :=
  ∀ n, offset cursor = some n → 0 ≤ n ∨ all.length ≤ n + size ∨ all = []

/-- What walks over the pages of a list read, with the cursors from which no item comes twice. -/
structure VisitsOnce (ask : Option κ → Reply κ β) (offset : Option κ → Option Int)
    (forward : Option κ → Prop) (all : List β) : Prop where
  /-- The walk that starts without a cursor reads the list. -/
  whole : ∃ calls, Collected (fun cursor page => ask cursor = page) none all calls
  /-- A page holds consecutive items. -/
  consecutive : ∀ cursor page next, ask cursor = some (page, next) →
    ∃ before after, all = before ++ page ++ after
  /-- The next cursor holds a greater number. -/
  further : ∀ cursor page next, ask cursor = some (page, some next) →
    ∃ here there, offset cursor = some here ∧ offset (some next) = some there ∧ here < there
  /-- A walk ends, whatever its first cursor is. -/
  ends : ∀ cursor, ∃ items calls,
    Collected (fun cursor page => ask cursor = page) cursor items calls
  /-- A walk from such a cursor reads items of the list in order, each at most once. -/
  once : ∀ cursor items calls,
    Collected (fun cursor page => ask cursor = page) cursor items calls →
    forward cursor → items.Sublist all
  /-- From every other cursor it reads an item twice. -/
  twice : all.Nodup → ∀ cursor items calls,
    Collected (fun cursor page => ask cursor = page) cursor items calls →
    items.Nodup → forward cursor

section Slices

variable {all : List β} {n : Int} {size : Nat}

theorem slice_consecutive (all : List β) (n : Int) (size : Nat) :
    ∃ before after, all = before ++ slice all n size ++ after := by
  -- Whatever the sign, a slice drops some items and takes some of the rest.
  have hparts : ∀ k, ∃ before after, all = before ++ (all.drop k).take size ++ after := by
    intro k
    refine ⟨all.take k, (all.drop k).drop size, ?_⟩
    rw [List.append_assoc, List.take_append_drop, List.take_append_drop]
  unfold slice
  split
  · exact hparts _
  · exact hparts _

theorem slice_sublist : (slice all n size).Sublist all := by
  obtain ⟨before, after, hall⟩ := slice_consecutive all n size
  conv_rhs => rw [hall]
  exact (List.sublist_append_right _ _).trans (List.sublist_append_left _ _)

theorem slice_append_drop (hn : 0 ≤ n) :
    slice all n size ++ all.drop (n + size).toNat = all.drop n.toNat := by
  have hnext : (n + size).toNat = n.toNat + size := by omega
  rw [slice, if_pos hn, hnext, ← List.drop_drop, List.take_append_drop]

theorem slice_of_last (hn : 0 ≤ n) (hlast : (all.length : Int) ≤ n + size) :
    slice all n size = all.drop n.toNat := by
  rw [slice, if_pos hn, List.take_of_length_le]
  rw [List.length_drop]
  omega

end Slices

namespace OffsetPager

variable {pager : OffsetPager κ} {all : List β} {size : Nat} {cursor : Option κ} {n : Int}

theorem page_more (hcursor : pager.offset cursor = some n) (hmore : n + size < all.length) :
    pager.page all size cursor = some (slice all n size, some (pager.code (n + size))) := by
  rw [page, hcursor, Option.map_some, if_pos hmore]

theorem page_last (hcursor : pager.offset cursor = some n) (hlast : ¬ n + size < all.length) :
    pager.page all size cursor = some (slice all n size, none) := by
  rw [page, hcursor, Option.map_some, if_neg hlast]

/-- The walk from a number ends. From a number that is not negative it reads the rest of the
list. -/
theorem exists_collected (hsize : 0 < size) : ∀ (left : Nat) (n : Int) (cursor : Option κ),
    pager.offset cursor = some n → (all.length : Int) ≤ n + left →
    ∃ items calls, Collected (fun cursor page => pager.page all size cursor = page) cursor
      items calls ∧ (0 ≤ n → items = all.drop n.toNat) := by
  intro left
  -- What is left of the list gets shorter with every page, since no page size is zero.
  induction left with
  | zero =>
    intro n cursor hcursor hleft
    have hlast : ¬ n + size < all.length := by omega
    refine ⟨_, 1, .last (page_last hcursor hlast), fun hn => ?_⟩
    apply slice_of_last hn
    omega
  | succ _ ih =>
    intro n cursor hcursor hleft
    by_cases hmore : n + size < all.length
    · obtain ⟨rest, calls, hrest, hdrop⟩ :=
        ih (n + size) (some (pager.code (n + size))) (pager.offset_code _) (by omega)
      refine ⟨_, calls + 1, .more (page_more hcursor hmore) hrest, fun hn => ?_⟩
      rw [hdrop (by omega)]
      exact slice_append_drop hn
    · refine ⟨_, 1, .last (page_last hcursor hmore), fun hn => ?_⟩
      apply slice_of_last hn
      omega

theorem collected_from (all : List β) (hsize : 0 < size) (hcursor : pager.offset cursor = some n) :
    ∃ items calls, Collected (fun cursor page => pager.page all size cursor = page) cursor
      items calls ∧ (0 ≤ n → items = all.drop n.toNat) := by
  apply exists_collected hsize (all.length + n.natAbs) n cursor hcursor
  omega

/-- An empty list has no items, from any cursor. -/
theorem collected_nil {items : List β} {calls : Nat}
    (hitems : Collected (fun cursor page => pager.page [] size cursor = page) cursor items calls) :
    items = [] := by
  have hempty : ∀ {cursor found next},
      pager.page ([] : List β) size cursor = some (found, next) → found = [] := by
    intro cursor found next hpage
    obtain ⟨n, -, hslice⟩ := Option.map_eq_some_iff.mp hpage
    exact (congrArg Prod.fst hslice).symm.trans (by simp [slice])
  induction hitems with
  | refused => rfl
  | last hpage => exact hempty hpage
  | more hpage _ ih => rw [hempty hpage, ih, List.nil_append]

/-- A page from the end of the list that is followed by another one is read again. -/
theorem reads_twice (hsize : 0 < size) (hall : all ≠ []) {items : List β} {calls : Nat}
    (hitems : Collected (fun cursor page => pager.page all size cursor = page) cursor items calls) :
    ∀ n, pager.offset cursor = some n → n < 0 → n + size < all.length → ¬ items.Nodup := by
  have hlen : 0 < all.length := List.length_pos_of_ne_nil hall
  induction hitems with
  | refused hpage =>
    intro n hcursor _ hmore
    cases (page_more hcursor hmore).symm.trans hpage
  | last hpage =>
    intro n hcursor _ hmore
    cases (page_more hcursor hmore).symm.trans hpage
  | more hpage hrest ih =>
    intro n hcursor hneg hmore hnodup
    cases (page_more hcursor hmore).symm.trans hpage
    have hdisjoint := List.disjoint_of_nodup_append hnodup
    rw [slice, if_neg (by omega)] at hdisjoint
    by_cases hnext : 0 ≤ n + size
    · -- past zero the walk reads the rest of the list, with the last item of this page
      obtain ⟨found, _, hfound, hdrop⟩ := collected_from all hsize (pager.offset_code (n + size))
      rw [hrest.unique hfound, hdrop hnext] at hdisjoint
      have hlast : min ((all.length + n).toNat + size) all.length - 1 < all.length := by omega
      refine hdisjoint (List.mem_iff_getElem.mpr ⟨min ((all.length + n).toNat + size) all.length -
        1 - (all.length + n).toNat, ?_, ?_⟩) (List.mem_iff_getElem.mpr ⟨min ((all.length +
        n).toNat + size) all.length - 1 - (n + size).toNat, ?_, ?_⟩ : all.get ⟨_, hlast⟩ ∈ _)
      · simp only [List.length_take, List.length_drop]
        omega
      · simp only [List.getElem_take, List.getElem_drop, List.get_eq_getElem]
        congr 1
        omega
      · simp only [List.length_drop]
        omega
      · simp only [List.getElem_drop, List.get_eq_getElem]
        congr 1
        omega
    · by_cases hagain : n + size + size < all.length
      · exact ih (n + size) (pager.offset_code _) (by omega) hagain hnodup.of_append_right
      · -- this page is the whole list, and the next one is not empty
        rw [hrest.unique (.last (page_last (pager.offset_code _) hagain)), slice,
          if_neg hnext] at hdisjoint
        have hstart : (all.length + n).toNat = 0 := by omega
        rw [hstart, List.drop_zero, List.take_of_length_le (by omega)] at hdisjoint
        have hlast : (all.length + (n + size)).toNat < all.length := by omega
        refine hdisjoint (List.get_mem all ⟨_, hlast⟩) (List.mem_iff_getElem.mpr ⟨0, ?_, ?_⟩)
        · simp only [List.length_take, List.length_drop]
          omega
        · simp only [List.getElem_take, List.getElem_drop, List.get_eq_getElem, Nat.add_zero]

theorem visitsOnce (pager : OffsetPager κ) (all : List β) (hsize : 0 < size) :
    VisitsOnce (pager.page all size) pager.offset (Forward pager.offset all size) all where
  whole := by
    obtain ⟨items, calls, hitems, hdrop⟩ := collected_from all hsize pager.offset_none
    have hall : items = all := hdrop (Int.le_refl 0)
    exact ⟨calls, hall ▸ hitems⟩
  consecutive cursor found next hpage := by
    obtain ⟨n, -, hslice⟩ := Option.map_eq_some_iff.mp hpage
    cases hslice
    exact slice_consecutive _ _ _
  further cursor found next hpage := by
    obtain ⟨n, hcursor, hslice⟩ := Option.map_eq_some_iff.mp hpage
    have hnext := congrArg Prod.snd hslice
    split at hnext
    · cases hnext
      exact ⟨n, n + size, hcursor, pager.offset_code _, by omega⟩
    · cases hnext
  ends cursor := by
    cases hcursor : pager.offset cursor with
    | none => exact ⟨[], 1, .refused (by rw [page, hcursor, Option.map_none])⟩
    | some =>
      obtain ⟨items, calls, hitems, -⟩ := collected_from all hsize hcursor
      exact ⟨items, calls, hitems⟩
  once cursor items calls hitems hforward := by
    cases hcursor : pager.offset cursor with
    | none =>
      have hrefused : pager.page all size cursor = none := by rw [page, hcursor, Option.map_none]
      rw [hitems.unique (.refused hrefused)]
      exact List.nil_sublist _
    | some n =>
      by_cases hn : 0 ≤ n
      · obtain ⟨found, calls', hfound, hdrop⟩ := collected_from all hsize hcursor
        rw [hitems.unique hfound, hdrop hn]
        exact List.drop_sublist _ _
      -- A page from the end of the list is read alone, or there is nothing to read.
      · rcases hforward n hcursor with hpos | hlast | rfl
        · exact absurd hpos hn
        · rw [hitems.unique (.last (page_last hcursor (Int.not_lt.mpr hlast)))]
          exact slice_sublist
        · rw [collected_nil hitems]
  twice hnodup cursor items calls hitems hdistinct n hcursor := by
    by_contra hnone
    rw [not_or, not_or] at hnone
    exact reads_twice hsize hnone.2.2 hitems n hcursor (by omega) (by omega) hdistinct

/-- Without a page size a cursor leads to itself. -/
theorem size_pos {forward : Option κ → Prop}
    (h : VisitsOnce (pager.page all size) pager.offset forward all) : 0 < size := by
  rw [Nat.pos_iff_ne_zero]
  rintro rfl
  have hmore : (-1 : Int) + (0 : Nat) < all.length := by omega
  obtain ⟨here, there, hhere, hthere, hlt⟩ :=
    h.further _ _ _ (page_more (pager.offset_code (-1)) hmore)
  rw [pager.offset_code] at hhere hthere
  cases hhere
  cases hthere
  omega

end OffsetPager

/-! ## The two pagers -/

/-- The cursors of the list methods. -/
def listPager (texts : Texts) : OffsetPager Text where
  offset := decodeCursor texts
  code := encodeCursor texts
  offset_none := rfl
  offset_code := decode_encodeCursor

variable {host : Host} {rows : List RowMap} {relation : Relation} {opts : Sql.Opts}

theorem offset_encodeOffset (n : Int) : offset host (some (encodeOffset host n)) = some n := by
  have hsql : "sql:".toList = ['s', 'q', 'l', ':'] := rfl
  simp only [offset, encodeOffset, String.toList_ofList, host.decode_offset n]
  simp only [hsql, List.cons_append, List.nil_append, host.texts.parse_print]

/-- The cursors of `sql/scan`. -/
def scanPager (host : Host) : OffsetPager String where
  offset := offset host
  code := encodeOffset host
  offset_none := rfl
  offset_code := offset_encodeOffset

theorem page_eq_scanPager (hlimited : relation.limit = true)
    (hpos : 0 < opts.limit.getD defaultLimit) :
    page host rows relation opts =
      (scanPager host).page rows (opts.limit.getD defaultLimit).toNat opts.cursor := by
  have hsize : ((opts.limit.getD defaultLimit).toNat : Int) = opts.limit.getD defaultLimit :=
    Int.toNat_of_nonneg (Int.le_of_lt hpos)
  rw [page, if_pos hlimited, OffsetPager.page, hsize]
  rfl

/-- A relation without a limit comes as one page, for any cursor. -/
theorem visitsOnce_unlimited (offset : Option κ → Option Int) {forward : Option κ → Prop}
    (hforward : ∀ cursor, forward cursor) (all : List β) :
    VisitsOnce (fun _ => some (all, none)) offset forward all where
  whole := ⟨1, .last rfl⟩
  consecutive := by
    rintro cursor found next hpage
    cases hpage
    exact ⟨[], [], by simp⟩
  further := by
    rintro cursor found next hpage
    cases hpage
  ends cursor := ⟨all, 1, .last rfl⟩
  once := by
    intro cursor items calls hitems _
    have hall : items = all := hitems.unique (.last rfl)
    rw [hall]
  twice _ cursor _ _ _ _ := hforward cursor

/-- The cursors of a scan from which no row comes twice. -/
def ScansForward (host : Host) (rows : List RowMap) (relation : Relation) (opts : Sql.Opts)
    (cursor : Option String) : Prop :=
  relation.limit = true → Forward (offset host) rows (opts.limit.getD defaultLimit).toNat cursor

theorem visitsOnce_scan (hlimit : ∀ n ∈ opts.limit, 0 < n) :
    VisitsOnce (fun cursor => page host rows relation { opts with cursor := cursor })
      (offset host) (ScansForward host rows relation opts) rows := by
  by_cases hlimited : relation.limit = true
  · have hpos : 0 < opts.limit.getD defaultLimit := by
      cases hgiven : opts.limit with
      | none => exact (by decide : (0 : Int) < defaultLimit)
      | some n => exact hlimit n hgiven
    have hask : (fun cursor => page host rows relation { opts with cursor := cursor }) =
        (scanPager host).page rows (opts.limit.getD defaultLimit).toNat := by
      funext cursor
      apply page_eq_scanPager hlimited
      exact hpos
    have hforward : ScansForward host rows relation opts =
        Forward (offset host) rows (opts.limit.getD defaultLimit).toNat := by
      funext cursor
      exact propext ⟨fun h => h hlimited, fun h _ => h⟩
    rw [hask, hforward]
    apply (scanPager host).visitsOnce
    omega
  · have hask : (fun cursor => page host rows relation { opts with cursor := cursor }) =
        fun _ => some (rows, none) := by
      funext cursor
      rw [page, if_neg hlimited]
    rw [hask]
    exact visitsOnce_unlimited _ (fun _ hlimit => absurd hlimit hlimited) rows

/-- Both pagers, for every list: the walk from the start reads the list, every page holds
consecutive items, every next cursor is further along, every walk ends, and a walk reads no item
twice just if it does not start at a negative number whose page is not the last. The list methods
need a page size for it, and need no more; `decode_limit/1` refuses a limit that is not positive. -/
theorem pagers_visit_once {α : Type} (texts : Texts) (items : List α) (size : Nat) (host : Host)
    (rows : List RowMap) (relation : Relation) (opts : Sql.Opts)
    (hlimit : ∀ n ∈ opts.limit, 0 < n) :
    (VisitsOnce (fun cursor => paginate texts items cursor size) (decodeCursor texts)
        (Forward (decodeCursor texts) items size) items ↔ 0 < size) ∧
      VisitsOnce (fun cursor => page host rows relation { opts with cursor := cursor })
        (offset host) (ScansForward host rows relation opts) rows := by
  refine ⟨⟨fun h => ?_, fun hsize => (listPager texts).visitsOnce items hsize⟩,
    visitsOnce_scan hlimit⟩
  exact (OffsetPager.size_pos : VisitsOnce ((listPager texts).page items size) _ _ items → _) h

/-- Three items in pages of two, and two rows one by one. -/
theorem pagers_visit_once_thrice :
    VisitsOnce (fun cursor => paginate unaryTexts ["a", "b", "c"] cursor 2)
        (decodeCursor unaryTexts) (Forward (decodeCursor unaryTexts) ["a", "b", "c"] 2)
        ["a", "b", "c"] ∧
      VisitsOnce (fun cursor => page Catalog.unaryHost [[], []] ⟨"events", [], [], true, .other⟩
          ⟨.null, none, [], some 1, cursor⟩) (offset Catalog.unaryHost)
        (ScansForward Catalog.unaryHost [[], []] ⟨"events", [], [], true, .other⟩
          ⟨.null, none, [], some 1, none⟩) [[], []] := by
  obtain ⟨hlist, hscan⟩ := pagers_visit_once unaryTexts ["a", "b", "c"] 2 Catalog.unaryHost
    [[], []] ⟨"events", [], [], true, .other⟩ ⟨.null, none, [], some 1, none⟩ (by simp)
  exact ⟨hlist.mpr (by decide), hscan⟩

/-- Three items and three rows, two on a page. -/
def threeItems (cursor : Option Text) : Reply Text String :=
  paginate unaryTexts ["a", "b", "c"] cursor 2

def threeRows (cursor : Option String) : Reply String RowMap :=
  page Catalog.unaryHost [[(.str "n", .int 1)], [(.str "n", .int 2)], [(.str "n", .int 3)]]
    ⟨"events", [], [], true, .other⟩ ⟨.null, none, [], some 2, cursor⟩

/-- The walks from minus one read the last item and the last row twice. -/
theorem negative_cursor_reads_twice :
    Collected (fun cursor page => threeItems cursor = page) (some "o:-1".toList)
      ["c", "b", "c"] 2 ∧
    Collected (fun cursor page => threeRows cursor = page) (some "sql:-1")
      [[(.str "n", .int 3)], [(.str "n", .int 2)], [(.str "n", .int 3)]] 2 := by
  constructor
  · have hfirst : threeItems (some "o:-1".toList) = some (["c"], some "o:+1".toList) := by decide
    have hrest : Collected (fun cursor page => threeItems cursor = page) (some "o:+1".toList)
        ["b", "c"] 1 := .last (by decide)
    exact .more hfirst hrest
  · have hfirst : threeRows (some "sql:-1") =
        some ([[(.str "n", .int 3)]], some "sql:+1") := by decide
    have hrest : Collected (fun cursor page => threeRows cursor = page) (some "sql:+1")
        [[(.str "n", .int 2)], [(.str "n", .int 3)]] 1 := .last (by decide)
    exact .more hfirst hrest

end NoizuMcp.Server.CursorWalks
