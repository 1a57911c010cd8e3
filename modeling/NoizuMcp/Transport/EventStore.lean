import Mathlib.Data.List.DropRight
import Mathlib.Data.List.TakeWhile
import NoizuMcp.Transport.Sink
import NoizuMcp.Transport.Sse

/-!
# The event store of all sessions

`Noizu.MCP.Server.EventStore`: a table of rows that any number of sessions share, and one
counter. An append takes the next number and prunes the oldest rows of its session, a drop
deletes the rows of a session, and a replay sorts what it finds of a session.

The table is compared with a plain list for each session, of everything that was appended
since its last drop (`Log`). What a session has in the table is the end of its list
(`Holds`), in the order of the numbers, and every operation keeps it so. With that the
replay is read off the list (`replay_exact`). To one session the shared table is the
`Store` with which the sink is modelled (`Holds.store`).
-/

set_option autoImplicit false

namespace NoizuMcp.Transport.EventStore

open StreamableHttp (Event Store after prune)

open Sse (integerParse)

/-! ## Event ids -/

/-- A text of a message. -/
abbrev Binary := List UInt8

/-- `encode_id/1`. -/
def encodeId (seq : Nat) : String := "s:" ++ toString seq

/-- `parse_seq/1`. -/
def parseSeq (id : Option String) : Option Int :=
  match id.map String.toList with
  | some ('s' :: ':' :: seq) =>
    match integerParse seq with
    | some (n, []) => some n
    | _ => none
  | _ => none

/-- An id gives back the number it was made of. -/
@[simp] theorem parseSeq_encodeId (seq : Nat) :
    parseSeq (some (encodeId seq)) = some (seq : Int) := by
  have hid : (encodeId seq).toList = 's' :: ':' :: Nat.toDigits 10 seq := by simp [encodeId]
  have hdigit : ∀ c ∈ Nat.toDigits 10 seq, c.isDigit = true := fun c hc =>
    Nat.isDigit_of_mem_toDigits (by omega) (by omega) hc
  have hdigits : integerParse.digits (Nat.toDigits 10 seq) = some (seq, []) := by
    have htake : (Nat.toDigits 10 seq).takeWhile Char.isDigit = Nat.toDigits 10 seq :=
      List.takeWhile_eq_self_iff.mpr hdigit
    have hdrop : (Nat.toDigits 10 seq).dropWhile Char.isDigit = [] :=
      List.dropWhile_eq_nil_iff.mpr hdigit
    simp [integerParse.digits, htake, hdrop]
  -- the first digit is no sign
  have hparse : integerParse (Nat.toDigits 10 seq) = some ((seq : Int), []) := by
    rw [integerParse]
    · simp [hdigits]
    all_goals
      intro chars heq
      have hsign := hdigit _ (by rw [heq]; exact List.mem_cons_self)
      cases hsign
  simp [parseSeq, hid, hparse]

/-! ## The table -/

/-- A row of the table. -/
structure Row where
  session : String
  seq : Nat
  binary : Binary
  deriving DecidableEq

/-- The event of a row. -/
def Row.event (row : Row) : Event Binary := (row.seq, row.binary)

/-- The table, a bag, with its rows in the order they came in, and the counter. -/
structure State where
  table : List Row := []
  seq : Nat := 0

/-- `:ets.insert/2`; a bag has no row twice. -/
def insert (table : List Row) (row : Row) : List Row :=
  if row ∈ table then table else table ++ [row]

/-- `:ets.lookup/2`. -/
def lookup (table : List Row) (session : String) : List Row :=
  table.filter fun row => row.session = session

/-- `:ets.delete_object/2`. -/
def deleteObject (table : List Row) (row : Row) : List Row := table.filter (· ≠ row)

/-- `:ets.delete/2`. -/
def delete (table : List Row) (session : String) : List Row :=
  table.filter fun row => row.session ≠ session

/-- `prune/2`, for a limit in place of `@max_events_per_session`. -/
def pruneTable (limit : Nat) (table : List Row) (session : String) : List Row :=
  let events := lookup table session
  let overflow : Int := events.length - limit
  if 0 < overflow then
    ((events.mergeSort fun a b => a.seq ≤ b.seq).take overflow.toNat).foldl deleteObject table
  else table

/-- `append/3`: the id, and the state. -/
def append (limit : Nat) (state : State) (session : String) (binary : Binary) : String × State :=
  let seq := state.seq + 1
  (encodeId seq,
    { table := pruneTable limit (insert state.table ⟨session, seq, binary⟩) session
      seq := seq })

/-- `drop/2`. -/
def drop (state : State) (session : String) : State :=
  { state with table := delete state.table session }

/-- The order of the pairs that a replay sorts: by number, then by text. -/
def pairLe (a b : Event Binary) : Bool := a.1 < b.1 || (a.1 == b.1 && decide (a.2 ≤ b.2))

/-- `replay_after/3`. -/
def replayAfter (state : State) (session : String) (lastEventId : Option String) :
    List (String × Binary) :=
  ((((lookup state.table session).map Row.event).filter (after (parseSeq lastEventId))).mergeSort
    pairLe).map fun event => (encodeId event.1, event.2)

/-! ## Histories -/

/-- The calls that change the store. -/
inductive Op where
  | append (session : String) (binary : Binary)
  | drop (session : String)

/-- What was done: an append under the id it returned, or a drop. -/
inductive Done where
  | appended (session id : String) (binary : Binary)
  | dropped (session : String)

/-- One call of the server. -/
def step (limit : Nat) (state : State) : Op → State × Done
  | .append session binary =>
    ((append limit state session binary).2,
      .appended session (append limit state session binary).1 binary)
  | .drop session => (drop state session, .dropped session)

/-- The state after some operations, and what was done. -/
def run (limit : Nat) (state : State) : List Op → State × List Done
  | [] => (state, [])
  | op :: ops =>
    let next := step limit state op
    let last := run limit next.1 ops
    (last.1, next.2 :: last.2)

/-- What is to be done for a list of calls: the `n`-th append of all sessions gets the id of the
number `n`. -/
def asked : Nat → List Op → List Done
  | _, [] => []
  | n, .append session binary :: ops =>
    .appended session (encodeId (n + 1)) binary :: asked (n + 1) ops
  | n, .drop session :: ops => .dropped session :: asked n ops

/-- What one operation makes of the messages of a session. -/
def keep (session : String) (soFar : List (String × Binary)) : Done → List (String × Binary)
  | .appended other id binary => if other = session then soFar ++ [(id, binary)] else soFar
  | .dropped other => if other = session then [] else soFar

/-- The messages appended to a session since its last drop, under their ids. -/
def sinceDrop (session : String) (done : List Done) : List (String × Binary) :=
  done.foldl (keep session) []

/-- The ids given out for a session. -/
def givenOut (session : String) (done : List Done) : List String :=
  done.filterMap fun
    | .appended other id _ => if other = session then some id else none
    | .dropped _ => none

/-- The number of an id is greater than that of another; every number is, if the other has
none. -/
def isAfter (lastEventId : Option String) (id : String) : Bool :=
  match parseSeq lastEventId, parseSeq (some id) with
  | none, _ => true
  | some last, some seq => decide (last < seq)
  | some _, none => false

/-! ## The table of one session -/

section Table

variable {limit : Nat} {table : List Row} {session other : String} {row : Row}

theorem foldl_deleteObject (rows table : List Row) :
    rows.foldl deleteObject table = table.filter fun row => row ∉ rows := by
  induction rows generalizing table with
  | nil => simp
  | cons _ _ ih =>
    rw [List.foldl_cons, ih, deleteObject, List.filter_filter]
    apply List.filter_congr
    simp [Bool.and_comm]

theorem lookup_insert (hfresh : row ∉ table) :
    lookup (insert table row) session =
      lookup table session ++ if row.session = session then [row] else [] := by
  simp only [insert, if_neg hfresh, lookup]
  split <;> simp_all

theorem lookup_delete :
    lookup (delete table other) session = if other = session then [] else lookup table session := by
  simp only [lookup, delete, List.filter_filter]
  split
  · next h =>
    simp [h]
  · next h =>
    apply List.filter_congr
    intro row _
    by_cases hrow : row.session = session
    · simp [hrow, Ne.symm h]
    · simp [hrow]

/-- Deleting the first members of a list without repetitions. -/
theorem filter_not_mem_take {rows : List Row} (hnodup : rows.Nodup) (n : Nat) :
    (rows.filter fun row => row ∉ rows.take n) = rows.drop n := by
  induction rows generalizing n with
  | nil => simp
  | cons first _ ih =>
    cases n with
    | zero => simp
    | succ =>
      obtain ⟨hfirst, hrest⟩ := List.nodup_cons.mp hnodup
      rw [List.drop_succ_cons, List.filter_cons_of_neg (by simp), ← ih hrest]
      apply List.filter_congr
      intro row hrow
      have hne : row ≠ first := fun heq => hfirst (heq ▸ hrow)
      simp [hne]

/-- Rows of one session in the order of their numbers. -/
abbrev Ordered (rows : List Row) : Prop := rows.Pairwise fun a b => a.seq < b.seq

/-- Pruning leaves the end of what the session has. -/
theorem lookup_pruneTable_self (hordered : Ordered (lookup table session)) :
    lookup (pruneTable limit table session) session = (lookup table session).rtake limit := by
  simp only [pruneTable]
  have hsorted : ((lookup table session).mergeSort fun a b => decide (a.seq ≤ b.seq)) =
      lookup table session := by
    apply List.mergeSort_of_pairwise
    exact hordered.imp fun hlt => decide_eq_true (Nat.le_of_lt hlt)
  split
  · next hover =>
    have hnodup : (lookup table session).Nodup := by
      apply List.Pairwise.imp _ hordered
      rintro first second hlt rfl
      exact Nat.lt_irrefl _ hlt
    have htake : ((lookup table session).length - limit : Int).toNat =
        (lookup table session).length - limit := by omega
    rw [hsorted, htake, foldl_deleteObject, List.rtake, ← filter_not_mem_take hnodup]
    simp only [lookup, List.filter_filter]
    apply List.filter_congr
    intro row _
    exact Bool.and_comm _ _
  · next hover =>
    have hfits : (lookup table session).length - limit = 0 := by omega
    rw [List.rtake, hfits, List.drop_zero]

/-- Pruning one session leaves the others alone. -/
theorem lookup_pruneTable_ne (hne : other ≠ session) :
    lookup (pruneTable limit table session) other = lookup table other := by
  simp only [pruneTable]
  split
  · rw [foldl_deleteObject]
    simp only [lookup, List.filter_filter]
    apply List.filter_congr
    intro row _
    by_cases hrow : row.session = other
    · -- no row of the other session is among those that are deleted
      have hnot : ∀ n, row ∉ ((table.filter fun row => decide (row.session = session)).mergeSort
          fun a b => decide (a.seq ≤ b.seq)).take n := by
        intro n hmem
        have hin := List.mem_mergeSort.mp (List.mem_of_mem_take hmem)
        exact hne (hrow.symm.trans (of_decide_eq_true (List.mem_filter.mp hin).2))
      simp [hnot]
    · simp [hrow]
  · rfl

end Table

/-! ## The lists of the sessions -/

/-- The number given last, and for each session everything since its last drop. -/
structure Log where
  seq : Nat := 0
  events : String → List (Event Binary) := fun _ => []

/-- What an operation does to the lists. -/
def Log.step (log : Log) : Op → Log
  | .append session binary =>
    { seq := log.seq + 1
      events := Function.update log.events session
        (log.events session ++ [(log.seq + 1, binary)]) }
  | .drop session => { log with events := Function.update log.events session [] }

/-- The lists are in the order of the numbers, and no number is still to come. -/
structure Log.Sound (log : Log) : Prop where
  increasing : ∀ session, (log.events session).Pairwise fun a b => a.1 < b.1
  bounded : ∀ session, ∀ event ∈ log.events session, event.1 ≤ log.seq

/-- The table holds the end of the list of every session. -/
structure Holds (limit : Nat) (log : Log) (state : State) : Prop where
  seq : state.seq = log.seq
  stored : ∀ session,
    (lookup state.table session).map Row.event = (log.events session).rtake limit

section Holds

variable {limit : Nat} {log : Log} {state : State}

theorem Log.Sound.step (h : log.Sound) (op : Op) : (log.step op).Sound := by
  cases op with
  | append session =>
    constructor
    case increasing =>
      intro other
      by_cases hother : other = session
      · subst hother
        simp only [Log.step, Function.update_self]
        refine List.pairwise_append.mpr ⟨h.increasing other, List.pairwise_singleton _ _, ?_⟩
        intro event hevent new hnew
        rw [List.mem_singleton.mp hnew]
        exact Nat.lt_succ_of_le (h.bounded other event hevent)
      · simpa [Log.step, hother] using h.increasing other
    case bounded =>
      intro other event hevent
      by_cases hother : other = session
      · subst hother
        simp only [Log.step, Function.update_self, List.mem_append, List.mem_singleton] at hevent
        rcases hevent with hold | rfl
        · exact Nat.le_succ_of_le (h.bounded other event hold)
        · exact Nat.le_refl _
      · simp only [Log.step, Function.update_of_ne hother] at hevent
        exact Nat.le_succ_of_le (h.bounded other event hevent)
  | drop session =>
    constructor
    case increasing =>
      intro other
      by_cases hother : other = session
      · simp [Log.step, hother]
      · simpa [Log.step, hother] using h.increasing other
    case bounded =>
      intro other event hevent
      by_cases hother : other = session
      · simp [Log.step, hother] at hevent
      · simp only [Log.step, Function.update_of_ne hother] at hevent
        exact h.bounded other event hevent

theorem rtake_append_singleton {α : Type} (limit : Nat) (events : List α) (event : α) :
    (events.rtake limit ++ [event]).rtake limit = (events ++ [event]).rtake limit := by
  have hle : events.length - limit ≤ events.length := Nat.sub_le _ _
  rw [List.rtake, List.rtake, List.rtake, ← List.drop_append_of_le_length hle, List.drop_drop,
    List.length_drop, List.length_append]
  congr 1
  omega

theorem map_rtake {α β : Type} (f : α → β) (limit : Nat) (events : List α) :
    (events.rtake limit).map f = (events.map f).rtake limit := by
  rw [List.rtake, List.rtake, List.map_drop, List.length_map]

section

variable (h : Holds limit log state)

include h

/-- A row of the table is one of the list of its session. -/
theorem Holds.mem_events {row : Row} (hrow : row ∈ state.table) :
    row.event ∈ log.events row.session := by
  have hin : row.event ∈ (lookup state.table row.session).map Row.event :=
    List.mem_map_of_mem (List.mem_filter.mpr ⟨hrow, decide_eq_true rfl⟩)
  rw [h.stored] at hin
  exact List.mem_of_mem_drop hin

theorem Holds.ordered (hlog : log.Sound) (session : String) :
    Ordered (lookup state.table session) := by
  have hmap : ((lookup state.table session).map Row.event).Pairwise fun a b => a.1 < b.1 := by
    rw [h.stored]
    exact (hlog.increasing session).sublist (List.drop_sublist _ _)
  rw [List.pairwise_map] at hmap
  exact hmap

/-- No row of the table has the next number. -/
theorem Holds.seq_lt (hlog : log.Sound) {row : Row} (hrow : row ∈ state.table) :
    row.seq < state.seq + 1 := by
  have hle : row.seq ≤ log.seq := hlog.bounded _ _ (h.mem_events hrow)
  have hseq := h.seq
  omega

theorem Holds.append (hlog : log.Sound) (session : String) (binary : Binary) :
    Holds limit (log.step (.append session binary)) (append limit state session binary).2 := by
  have hseq := h.seq
  have hfresh : (⟨session, state.seq + 1, binary⟩ : Row) ∉ state.table :=
    fun hmem => Nat.lt_irrefl _ (h.seq_lt hlog hmem)
  have hlookup : ∀ other, lookup (insert state.table ⟨session, state.seq + 1, binary⟩) other =
      lookup state.table other ++
        if session = other then [⟨session, state.seq + 1, binary⟩] else [] :=
    fun other => lookup_insert hfresh
  constructor
  case seq => simp [EventStore.append, Log.step, hseq]
  case stored =>
    intro other
    simp only [EventStore.append, Log.step]
    by_cases hother : other = session
    · subst hother
      have hordered :
          Ordered (lookup (insert state.table ⟨other, state.seq + 1, binary⟩) other) := by
        rw [hlookup, if_pos rfl]
        refine List.pairwise_append.mpr
          ⟨h.ordered hlog other, List.pairwise_singleton _ _, ?_⟩
        intro row hrow new hnew
        rw [List.mem_singleton.mp hnew]
        exact h.seq_lt hlog (List.mem_filter.mp hrow).1
      rw [lookup_pruneTable_self hordered, hlookup, if_pos rfl, map_rtake, List.map_append,
        h.stored, List.map_singleton, rtake_append_singleton, Function.update_self, Row.event, hseq]
    · rw [lookup_pruneTable_ne hother, hlookup, if_neg (Ne.symm hother), List.append_nil,
        Function.update_of_ne hother, h.stored]

theorem Holds.drop (session : String) :
    Holds limit (log.step (.drop session)) (drop state session) := by
  constructor
  case seq => exact h.seq
  case stored =>
    intro other
    simp only [EventStore.drop, Log.step]
    by_cases hother : other = session
    · subst hother
      simp [lookup_delete, List.rtake]
    · rw [lookup_delete, if_neg (Ne.symm hother), Function.update_of_ne hother, h.stored]

/-- Every operation keeps the end of every list in the table. -/
theorem Holds.step (hlog : log.Sound) (op : Op) :
    Holds limit (log.step op) (step limit state op).1 := by
  cases op with
  | append session binary => exact h.append hlog session binary
  | drop session => exact h.drop session

end

end Holds

/-! ## Replays over whole histories -/

section Runs

variable {limit : Nat} {log : Log} {state : State}

/-- An event under its id. -/
def named (event : Event Binary) : String × Binary := (encodeId event.1, event.2)

/-- The lists of the sessions follow what was done. -/
theorem keep_step (h : state.seq = log.seq) (session : String) (op : Op) :
    keep session ((log.events session).map named) (step limit state op).2 =
      ((log.step op).events session).map named := by
  cases op with
  | append other =>
    by_cases hother : other = session
    · subst hother
      simp [step, keep, append, Log.step, named, h]
    · have hne : session ≠ other := Ne.symm hother
      simp [step, keep, Log.step, hother, hne]
  | drop other =>
    by_cases hother : other = session
    · subst hother
      simp [step, keep, Log.step]
    · have hne : session ≠ other := Ne.symm hother
      simp [step, keep, Log.step, hother, hne]

/-- After a run the table holds the ends of the lists of what was done. -/
theorem run_holds (h : Holds limit log state) (hlog : log.Sound) (ops : List Op) :
    ∃ last : Log, last.Sound ∧ Holds limit last (run limit state ops).1 ∧
      ∀ session, (run limit state ops).2.foldl (keep session) ((log.events session).map named) =
        (last.events session).map named := by
  induction ops generalizing log state with
  | nil => exact ⟨log, hlog, h, fun _ => rfl⟩
  | cons op _ ih =>
    obtain ⟨last, hsound, hholds, hlists⟩ := ih (h.step hlog op) (hlog.step op)
    refine ⟨last, hsound, hholds, fun session => ?_⟩
    simp only [run, List.foldl_cons]
    rw [keep_step h.seq, hlists]

/-- The events of a list that come after an id are found sorted as they are. -/
theorem Holds.replay (h : Holds limit log state) (hlog : log.Sound) (session : String)
    (lastEventId : Option String) :
    replayAfter state session lastEventId =
      (((log.events session).map named).rtake limit).filter fun event =>
        isAfter lastEventId event.1 := by
  have hsorted : (((log.events session).rtake limit).filter
      (after (parseSeq lastEventId))).Pairwise fun a b => pairLe a b = true := by
    have hends : ((log.events session).rtake limit).Pairwise fun a b => a.1 < b.1 :=
      (hlog.increasing session).sublist (List.drop_sublist _ _)
    apply (hends.filter _).imp
    intro first second hlt
    simp [pairLe, hlt]
  -- to be after an id is to be after the number in it
  have hafter : ∀ event : Event Binary,
      isAfter lastEventId (named event).1 = after (parseSeq lastEventId) event := by
    intro event
    cases hlast : parseSeq lastEventId <;> simp [isAfter, named, after, hlast]
  rw [replayAfter, h.stored, List.mergeSort_of_pairwise hsorted, ← map_rtake, List.filter_map]
  congr 2
  funext event
  exact (hafter event).symm

/-- What a run does is what it was asked to do. -/
theorem run_done (limit : Nat) (state : State) (ops : List Op) :
    (run limit state ops).2 = asked state.seq ops := by
  induction ops generalizing state with
  | nil => rfl
  | cons op _ ih =>
    rw [run, ih]
    cases op <;> rfl

/-- The ids of a run are those of numbers that were still to come, each larger than those
before it. -/
theorem givenOut_increasing (limit : Nat) (state : State) (session : String) (ops : List Op) :
    ∃ seqs : List Nat, givenOut session (run limit state ops).2 = seqs.map encodeId ∧
      seqs.Pairwise (· < ·) ∧ ∀ seq ∈ seqs, state.seq < seq := by
  induction ops generalizing state with
  | nil => exact ⟨[], rfl, .nil, by simp⟩
  | cons op _ ih =>
    obtain ⟨seqs, hgiven, hincreasing, hlater⟩ := ih (step limit state op).1
    cases op with
    | append other =>
      have hmore : ∀ seq ∈ seqs, state.seq + 1 < seq := hlater
      by_cases hother : other = session
      · subst hother
        refine ⟨(state.seq + 1) :: seqs, ?_, List.pairwise_cons.mpr ⟨hmore, hincreasing⟩, ?_⟩
        · rw [List.map_cons, ← hgiven]
          simp [givenOut, run, step, append]
        · intro seq hseq
          rcases List.mem_cons.mp hseq with rfl | hseq
          · exact Nat.lt_succ_self _
          · exact Nat.lt_of_succ_lt (hmore seq hseq)
      · refine ⟨seqs, ?_, hincreasing, fun seq hseq => Nat.lt_of_succ_lt (hmore seq hseq)⟩
        rw [← hgiven]
        simp [givenOut, run, step, hother]
    | drop => exact ⟨seqs, hgiven, hincreasing, hlater⟩

end Runs

/-- After any calls, a replay returns those of the last `limit` messages appended since the last
drop of the session that come after an id, in order and under the ids that the appends returned;
and the ids of a session grow. -/
theorem replay_exact (limit : Nat) (ops : List Op) (session : String)
    (lastEventId : Option String) :
    (run limit {} ops).2 = asked 0 ops ∧
      replayAfter (run limit {} ops).1 session lastEventId =
        ((sinceDrop session (asked 0 ops)).rtake limit).filter
          (fun event => isAfter lastEventId event.1) ∧
      (givenOut session (asked 0 ops)).Pairwise fun first second =>
        ∃ m n : Int, parseSeq (some first) = some m ∧ parseSeq (some second) = some n ∧ m < n := by
  have hdone : (run limit {} ops).2 = asked 0 ops := run_done limit {} ops
  refine ⟨hdone, ?_, ?_⟩ <;> rw [← hdone]
  · have hlog : ({} : Log).Sound := ⟨fun _ => .nil, fun _ _ h => by cases h⟩
    have hholds : Holds limit {} {} := ⟨rfl, fun _ => by simp [lookup]⟩
    obtain ⟨last, hsound, hlast, hlists⟩ := run_holds hholds hlog ops
    rw [hlast.replay hsound, ← hlists session]
    rfl
  · obtain ⟨seqs, hgiven, hincreasing, -⟩ := givenOut_increasing limit {} session ops
    rw [hgiven, List.pairwise_map]
    apply hincreasing.imp
    intro first second hlt
    exact ⟨first, second, parseSeq_encodeId first, parseSeq_encodeId second, by omega⟩

end NoizuMcp.Transport.EventStore
