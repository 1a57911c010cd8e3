import Mathlib.Data.List.Induction

/-!
# Cursors of the extension

The executor of Postgres takes rows from a cursor (`iter_scan`) and starts it again when a node
above re-runs the scan (`re_scan`). The cursors of the catalog and of the read-through tables keep
their rows and a position; those of `tool_calls` and of the tables per tool are iterators that give
their rows away, and have the `re_scan` of the trait, which does nothing.

`restarts_of_buffered`: a cursor starts again as it should if it keeps its rows, or if no row was
asked for before. `spent_cursor` is a scan of two rows that comes back with one.
-/

set_option autoImplicit false

namespace NoizuMcp.Pg

variable {Row : Type}

/-- The states of the four kinds of scans. -/
inductive ScanCursor (Row : Type) where
  | catalog (rows : List Row) (position : Nat)
  | readThrough (rows : List Row) (pos : Nat)
  | log (rows : List Row)
  | perTool (rows : List Row)

namespace ScanCursor

/-- The next row, and the cursor after it. -/
def iterScan : ScanCursor Row → Option Row × ScanCursor Row
  | .catalog rows position =>
    let row := rows[position]?
    (row, .catalog rows (if row.isSome then position + 1 else position))
  | .readThrough rows pos =>
    if pos < rows.length then (rows[pos]?, .readThrough rows (pos + 1))
    else (none, .readThrough rows pos)
  | .log rows => (rows.head?, .log rows.tail)
  | .perTool rows => (rows.head?, .perTool rows.tail)

/-- The log and the tables of tools have no `re_scan` of their own. -/
def reScan : ScanCursor Row → ScanCursor Row
  | .catalog rows _ => .catalog rows 0
  | .readThrough rows _ => .readThrough rows 0
  -- the default of the trait
  | .log rows => .log rows
  | .perTool rows => .perTool rows

end ScanCursor

/-- The kinds of tables. -/
inductive Kind where
  | catalog
  | readThrough
  | log
  | perTool

/-- The cursor keeps its rows. -/
def Kind.buffered : Kind → Bool
  | .catalog | .readThrough => true
  | .log | .perTool => false

/-- A cursor that was opened with the rows and stands before the row `i`. -/
def Kind.cursor (rows : List Row) (i : Nat) : Kind → ScanCursor Row
  | .catalog => .catalog rows i
  | .readThrough => .readThrough rows i
  | .log => .log (rows.drop i)
  | .perTool => .perTool (rows.drop i)

variable {kind : Kind} {rows : List Row} {i : Nat}

theorem iterScan_cursor : (kind.cursor rows i).iterScan =
    (rows[i]?, kind.cursor rows (if i < rows.length then i + 1 else i)) := by
  cases kind <;> by_cases h : i < rows.length <;>
    simp [Kind.cursor, ScanCursor.iterScan, h, List.head?_drop, List.tail_drop]
  all_goals omega

theorem reScan_cursor : (kind.cursor rows i).reScan =
    kind.cursor rows (if kind.buffered then 0 else i) := by
  cases kind <;> rfl

/-! ## Calls -/

/-- The calls of the executor. -/
inductive ScanCall where
  | iterScan
  | reScan
  deriving DecidableEq

/-- A call on a cursor, with the rows that it has returned since it was started. -/
def scanStep (s : ScanCursor Row × List Row) : ScanCall → ScanCursor Row × List Row
  | .iterScan => (s.1.iterScan.2, s.2 ++ s.1.iterScan.1.toList)
  | .reScan => (s.1.reScan, [])

/-- The rows since the cursor was last started. -/
def since (kind : Kind) (rows : List Row) (calls : List ScanCall) : List Row :=
  (calls.foldl scanStep (kind.cursor rows 0, [])).2

/-- The rows since the last start are the first ones, and all of them once the cursor is
exhausted. -/
def Restarts (kind : Kind) (rows : List Row) (calls : List ScanCall) : Prop :=
  since kind rows calls <+: rows ∧
    ∀ n, rows.length ≤ n → since kind rows (calls ++ List.replicate n .iterScan) = rows

/-- The cursor has been started at its first row. -/
def Started (kind : Kind) (rows : List Row) (calls : List ScanCall) (i : Nat) : Prop :=
  i ≤ rows.length ∧ calls.foldl scanStep (kind.cursor rows 0, []) = (kind.cursor rows i, rows.take i)

variable {calls : List ScanCall}

theorem Started.iterScan (h : Started kind rows calls i) :
    Started kind rows (calls ++ [.iterScan]) (min (i + 1) rows.length) := by
  refine ⟨Nat.min_le_right _ _, ?_⟩
  rw [List.foldl_append, h.2, List.foldl_cons, List.foldl_nil, scanStep, iterScan_cursor]
  by_cases hi : i < rows.length
  · rw [if_pos hi, Nat.min_eq_left hi, List.take_add_one]
  · obtain rfl : i = rows.length := Nat.le_antisymm h.1 (Nat.not_lt.mp hi)
    simp

theorem Started.exhaust (h : Started kind rows calls i) (n : Nat) :
    Started kind rows (calls ++ List.replicate n .iterScan) (min (i + n) rows.length) := by
  induction n with
  | zero => simpa [h.1] using h
  | succ n ih =>
    rw [List.replicate_succ', ← List.append_assoc]
    convert ih.iterScan using 1
    omega

theorem Started.restarts (h : Started kind rows calls i) : Restarts kind rows calls := by
  refine ⟨?_, fun n hn => ?_⟩
  · rw [since, h.2]
    exact List.take_prefix _ _
  · rw [since, (h.exhaust n).2, Nat.min_eq_right (by omega), List.take_length]

/-- A scan restarts if the cursor keeps its rows, or is not asked for one before it is started
again. -/
theorem restarts_of_buffered (kind : Kind) (rows : List Row) (calls : List ScanCall)
    (h : kind.buffered = true ∨
      ∀ first rest, calls = first ++ .reScan :: rest → .iterScan ∉ first) :
    Restarts kind rows calls := by
  suffices hstarted : ∃ i, Started kind rows calls i ∧ (.iterScan ∉ calls → i = 0) from
    hstarted.choose_spec.1.restarts
  -- the position is carried along: a `re_scan` that does nothing is harmless at 0 only
  induction calls using List.reverseRecOn with
  | nil => exact ⟨0, ⟨Nat.zero_le _, rfl⟩, fun _ => rfl⟩
  | append_singleton calls call ih =>
    obtain ⟨i, hi, hzero⟩ := ih (h.imp_right fun h first rest heq =>
      h first (rest ++ [call]) (by rw [heq, List.append_assoc, List.cons_append]))
    cases call with
    | iterScan => exact ⟨_, hi.iterScan, fun hnone => absurd (by simp) hnone⟩
    | reScan =>
      have hstart : (if kind.buffered then 0 else i) = 0 := by
        rcases h with hkept | hfirst
        · rw [if_pos hkept]
        · rw [hzero (hfirst calls [] rfl), ite_self]
      refine ⟨0, ⟨Nat.zero_le _, ?_⟩, fun _ => rfl⟩
      rw [List.foldl_append, hi.2, List.foldl_cons, List.foldl_nil, scanStep, reScan_cursor, hstart]
      rfl

theorem restarts_catalog : Restarts .catalog [1, 2] [.iterScan, .reScan] :=
  restarts_of_buffered _ _ _ (.inl rfl)

/-- A table per tool that is scanned again after its first row goes on with the second. -/
theorem spent_cursor : ¬ Restarts .perTool [1, 2] [.iterScan, .reScan] := by
  intro h
  cases h.2 2 (Nat.le_refl 2)

end NoizuMcp.Pg
