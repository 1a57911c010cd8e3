import Mathlib.Data.List.Basic
import NoizuMcp.Foundation.Service
import NoizuMcp.Transport.Sink

/-!
# The general stream of a session

One `handle_get` registers itself, reads the stored events after the one the client has
seen, writes them, and then writes what arrives in its mailbox. Any number of sends run
meanwhile. What is to be written is what the replay read and everything that is stored
afterwards (`due`). As long as no send that has missed the stream has still to store its
message when the replay is read, nothing is stored between registration and replay, and a
send stores only when no other one still has to tell the stream (`Apart`), the stream
writes what is due, in order (`Writing`).
-/

set_option autoImplicit false

namespace NoizuMcp.Transport.StreamableHttp

open Foundation (Prog Pool Service Action)

variable {Id Pid Bin : Type}

/-! ## The process of the stream -/

/-- Where `handle_get` stands. -/
inductive Phase (Bin : Type) where
  | waiting
  | registered
  | replaying (rest : List (Event Bin))
  | live
  | ended

/-- The session's store and the process of its general stream. `history` is everything
that was ever stored for the session, `cut` how much of it was there at the replay. -/
structure World (Id Pid Bin : Type) where
  store : Store Bin := {}
  history : List (Event Bin) := []
  streams : Id → Option Pid := fun _ => none
  found : Bool := false
  phase : Phase Bin := .waiting
  cut : Nat := 0
  mailbox : List (Event Bin) := []
  written : List (Event Bin) := []
  closed : Bool := false

/-- What is not a step of a send: the steps of `handle_get`, the client closing the
connection, the end of the session, the end of the process, appends for other sessions and
changes of the registered request streams. -/
inductive Move (Id Pid : Type) where
  | register
  | replay
  | write
  | receive
  | close
  | stop
  | unregister
  | otherSession
  | streams (streams : Id → Option Pid)

namespace World

variable (w : World Id Pid Bin)

/-- The store takes the message and numbers it. -/
def append (limit : Nat) (binary : Bin) : Nat × World Id Pid Bin :=
  ((w.store.append limit binary).1,
    { w with
      store := (w.store.append limit binary).2
      history := w.history ++ [((w.store.append limit binary).1, binary)] })

/-- The chunk of one event. -/
def chunk (event : Event Bin) : World Id Pid Bin := { w with written := w.written ++ [event] }

/-- The steps of the connection. -/
def move (last : Option Int) : Move Id Pid → Option (World Id Pid Bin)
  | .register =>
    match w.phase with
    | .waiting => some { w with phase := .registered, found := true }
    | _ => none
  | .replay =>
    match w.phase with
    | .registered =>
      some { w with
        phase := .replaying (w.store.replayAfter last)
        cut := w.history.length }
    | _ => none
  | .write =>
    match w.phase with
    | .replaying [] => some { w with phase := .live }
    | .replaying (event :: rest) =>
      -- a chunk that fails ends the replay, not the stream
      if w.closed then some { w with phase := .live }
      else some { w.chunk event with phase := .replaying rest }
    | _ => none
  | .receive =>
    match w.phase, w.mailbox with
    | .live, event :: rest =>
      if w.closed then some { w with phase := .ended, mailbox := rest }
      else some { w.chunk event with mailbox := rest }
    | _, _ => none
  | .close => some { w with closed := true }
  | .stop =>
    match w.phase with
    | .live => some { w with phase := .ended }
    | _ => none
  | .unregister =>
    match w.phase with
    | .ended => some { w with found := false }
    | _ => none
  | .otherSession => some { w with store := { w.store with seq := w.store.seq + 1 } }
  | .streams streams => some { w with streams := streams }

/-- An operation of a sender on the world. -/
def exec (limit : Nat) : (op : Op Id Pid Bin) → op.Res × World Id Pid Bin
  | .lookupStream id => (w.streams id, w)
  | .lookupGet => (w.found, w)
  | .append binary => w.append limit binary
  | .sendHttp _ _ => ((), w)
  | .sendEvent event binary => ((), { w with mailbox := w.mailbox ++ [(event, binary)] })

end World

/-- The sends of a session and its general stream, for a client that has seen `last`. -/
def service (limit : Nat) (last : Option Int) :
    Service (Outgoing Id Bin) Unit (World Id Pid Bin) Unit (Move Id Pid) (Op Id Pid Bin) Op.Res where
  handler := sendMessage
  admits _ _ := true
  exec p _ op _ := some (p.world.exec limit op)
  moves p m := p.world.move last m

/-- Messages that are being sent at the same time. -/
abbrev Sends (Id Pid Bin : Type) :=
  Pool (Outgoing Id Bin) Unit (World Id Pid Bin) (Op Id Pid Bin) Op.Res

abbrev Step (Id Pid Bin : Type) := Action (Outgoing Id Bin) Unit (Move Id Pid)

/-- The send is about to store its message and will tell nobody. -/
def storesUntold (t : Outgoing Id Bin × Send Id Pid Bin Unit) : Bool :=
  match t.2 with
  | .call (.append _) k =>
    match k (0 : Nat) with
    | .ret _ => true
    | .call _ _ => false
  | _ => false

/-- What the send is about to tell the stream. -/
def telling (t : Outgoing Id Bin × Send Id Pid Bin Unit) : Option (Event Bin) :=
  match t.2 with
  | .call (.sendEvent event binary) _ => some (event, binary)
  | _ => none

/-- The events that senders still have in hand. -/
def pending (p : Sends Id Pid Bin) : List (Event Bin) := p.threads.filterMap telling

def Phase.isRegistered : Phase Bin → Bool
  | .registered => true
  | _ => false

/-- When the replay is read no send that has missed the stream is about to store, and no
more events than the store holds are after the last one seen. Nothing is stored between
registration and replay, nor while a stored event has still to be told. -/
def Apart (limit : Nat) (last : Option Int) (p : Sends Id Pid Bin) : Step Id Pid Bin → Bool
  | .move .replay =>
    (p.threads.all fun t => !storesUntold t) &&
      decide ((p.world.history.filter (after last)).length ≤ limit)
  | .run i _ =>
    match p.threads[i]? with
    | some (_, .call (.append _) _) => !p.world.phase.isRegistered && (pending p).isEmpty
    | _ => true
  | _ => true

/-! ## What is due -/

/-- What the replay has read, if nothing was lost, and what was stored afterwards. -/
def World.due (last : Option Int) (w : World Id Pid Bin) : List (Event Bin) :=
  (w.history.take w.cut).filter (after last) ++ w.history.drop w.cut

/-- The history is in the order of the numbers, and the store holds the end of it. -/
structure Kept (limit : Nat) (w : World Id Pid Bin) : Prop where
  increasing : w.history.Pairwise fun e e' => e.1 < e'.1
  bounded : ∀ e ∈ w.history, e.1 ≤ w.store.seq
  stored : w.store.events = prune limit w.history
  cut_le : w.cut ≤ w.history.length

section Histories

variable {limit : Nat} {last : Option Int} {w : World Id Pid Bin}

theorem prune_append (limit : Nat) (events : List (Event Bin)) (event : Event Bin) :
    prune limit (prune limit events ++ [event]) = prune limit (events ++ [event]) := by
  have hle : events.length - limit ≤ events.length := Nat.sub_le _ _
  rw [prune, prune, prune, ← List.drop_append_of_le_length hle, List.drop_drop, List.length_drop,
    List.length_append]
  congr 1
  omega

/-- If few enough elements pass a test that later ones pass as well, none of them is lost. -/
theorem filter_prune {events : List (Event Bin)}
    (hincreasing : events.Pairwise fun e e' => e.1 < e'.1)
    (hlength : (events.filter (after last)).length ≤ limit) :
    (prune limit events).filter (after last) = events.filter (after last) := by
  induction events with
  | nil => rw [prune, List.drop_nil]
  | cons event rest ih =>
    obtain ⟨hfirst, hrest⟩ := List.pairwise_cons.mp hincreasing
    by_cases hroom : (event :: rest).length ≤ limit
    · rw [prune, Nat.sub_eq_zero_of_le hroom, List.drop_zero]
    · have hnot : after last event = false := by
        by_contra hpass
        have hpass : after last event = true := by simpa using hpass
        -- every later event would pass as well, and they are too many
        have hall : ∀ e ∈ event :: rest, after last e = true := by
          intro e he
          rcases List.mem_cons.mp he with rfl | he
          · exact hpass
          · have hlt := hfirst e he
            cases last with
            | none => rfl
            | some =>
              simp only [after, decide_eq_true_eq] at hpass ⊢
              omega
        rw [List.filter_eq_self.mpr hall] at hlength
        exact hroom hlength
      have hdrop : (event :: rest).length - limit = (rest.length - limit) + 1 := by
        simp only [List.length_cons] at hroom ⊢
        omega
      rw [List.filter_cons_of_neg (by simp [hnot])] at hlength ⊢
      rw [prune, hdrop]
      exact ih hrest hlength

/-- Only the history, the store and the cut matter. -/
theorem Kept.same (h : Kept limit w) {w' : World Id Pid Bin} (hhistory : w'.history = w.history)
    (hstore : w'.store = w.store) (hcut : w'.cut = w.cut) : Kept limit w' := by
  refine ⟨?_, ?_, ?_, ?_⟩
  · rw [hhistory]
    exact h.increasing
  · rw [hhistory, hstore]
    exact h.bounded
  · rw [hhistory, hstore]
    exact h.stored
  · rw [hhistory, hcut]
    exact h.cut_le

theorem Kept.append (h : Kept limit w) (binary : Bin) : Kept limit (w.append limit binary).2 := by
  refine ⟨?_, ?_, ?_, ?_⟩
  · refine List.pairwise_append.mpr ⟨h.increasing, List.pairwise_singleton _ _, ?_⟩
    intro e he e' he'
    rw [List.mem_singleton.mp he']
    exact Nat.lt_succ_of_le (h.bounded e he)
  · intro e he
    rcases List.mem_append.mp he with hold | hnew
    · exact Nat.le_succ_of_le (h.bounded e hold)
    · rw [List.mem_singleton.mp hnew]
      exact Nat.le_refl _
  · change prune limit (w.store.events ++ _) = prune limit (w.history ++ _)
    rw [h.stored, prune_append]
    rfl
  · exact (Nat.le_trans h.cut_le (by simp [World.append]))

/-- An append after the replay is due. -/
theorem Kept.due_append (hkept : Kept limit w) (last : Option Int) (binary : Bin) :
    (w.append limit binary).2.due last = w.due last ++ [((w.append limit binary).1, binary)] := by
  have h := hkept.cut_le
  change ((w.history ++ _).take w.cut).filter _ ++ (w.history ++ _).drop w.cut = _
  rw [List.take_append_of_le_length h, List.drop_append_of_le_length h, ← List.append_assoc]
  rfl

/-- What is due is part of the history. -/
theorem due_sublist : List.Sublist (w.due last) w.history := by
  conv_rhs => rw [← List.take_append_drop w.cut w.history]
  exact List.Sublist.append List.filter_sublist (List.Sublist.refl _)

theorem mem_due {event : Event Bin} (h : event ∈ w.history) (hafter : after last event = true) :
    event ∈ w.due last := by
  rw [← List.take_append_drop w.cut w.history] at h
  rcases List.mem_append.mp h with hread | hlater
  · exact List.mem_append_left _ (List.mem_filter.mpr ⟨hread, hafter⟩)
  · exact List.mem_append_right _ hlater

end Histories

/-! ## Where sends stand -/

/-- The stream is past its replay and has not ended. -/
def Phase.running : Phase Bin → Bool
  | .replaying _ => true
  | .live => true
  | _ => false

def Phase.isWaiting : Phase Bin → Bool
  | .waiting => true
  | _ => false

/-- Where a send can stand: one that has missed the stream has still to store only while no
stream runs, and one that has found it only once it is registered. -/
inductive Stage (phase : Phase Bin) : Send Id Pid Bin Unit → Prop where
  | sendMessage (message : Outgoing Id Bin) : Stage phase (sendMessage message)
  | unrelated (binary : Bin) : Stage phase (unrelated binary)
  | direct (pid : Pid) (binary : Bin) : Stage phase (related binary (some pid))
  | storing (binary : Bin) (h : phase.running = false) : Stage phase (storing binary)
  | numbering (binary : Bin) (h : phase.isWaiting = false) : Stage phase (numbering binary)
  | telling (event : Nat) (binary : Bin) : Stage phase (perform (.sendEvent event binary))
  | done : Stage phase (.ret ())

/-- The stream can be found just while it is registered or running, and perhaps still when
it has ended. -/
def Findable (phase : Phase Bin) (found : Bool) : Prop :=
  match phase with
  | .waiting => found = false
  | .ended => True
  | _ => found = true

/-- What is due has been written, or is on its way, in order. -/
def Writing (last : Option Int) (w : World Id Pid Bin) (told : List (Event Bin)) : Prop :=
  match w.phase with
  | .waiting | .registered => w.mailbox = [] ∧ told = [] ∧ w.written = []
  | .replaying rest =>
    w.written <+: w.due last ∧
      (w.closed = false → w.written ++ (rest ++ (w.mailbox ++ told)) = w.due last)
  | .live =>
    w.written <+: w.due last ∧
      (w.closed = false → w.written ++ (w.mailbox ++ told) = w.due last)
  | .ended => w.written <+: w.due last

/-- The invariant of the pool. -/
structure Running (limit : Nat) (last : Option Int) (p : Sends Id Pid Bin) : Prop where
  kept : Kept limit p.world
  findable : Findable p.world.phase p.world.found
  stages : ∀ t ∈ p.threads, Stage p.world.phase t.2
  single : (pending p).length ≤ 1
  writing : Writing last p.world (pending p)

/-- Whatever the phase, what is written is a beginning of what is due. -/
theorem Running.written_prefix {limit : Nat} {last : Option Int} {p : Sends Id Pid Bin}
    (h : Running limit last p) : p.world.written <+: p.world.due last := by
  have hwriting := h.writing
  unfold Writing at hwriting
  split at hwriting
  case h_1 | h_2 =>
    rw [hwriting.2.2]
    exact List.nil_prefix
  case h_3 | h_4 => exact hwriting.1
  case h_5 => exact hwriting

section Pending

variable {p : Sends Id Pid Bin} {t : Outgoing Id Bin × Send Id Pid Bin Unit} {i : Nat}

/-- What is pending around one send. -/
theorem pending_set (h : p.threads[i]? = some t)
    (t' : Outgoing Id Bin × Send Id Pid Bin Unit) (w : World Id Pid Bin)
    (log : List (Nat × Foundation.Event (Op Id Pid Bin) Op.Res)) :
    ∃ before later, pending p = before ++ ((telling t).toList ++ later) ∧
      pending ⟨w, p.threads.set i t', log⟩ = before ++ ((telling t').toList ++ later) := by
  obtain ⟨hlt, rfl⟩ := List.getElem?_eq_some_iff.mp h
  refine ⟨(p.threads.take i).filterMap telling, (p.threads.drop (i + 1)).filterMap telling, ?_, ?_⟩
  · conv_lhs => rw [pending, ← List.take_append_drop i p.threads, List.drop_eq_getElem_cons hlt]
    rw [List.filterMap_append, List.filterMap_cons]
    cases telling p.threads[i] with
    | none => rfl
    | some => rfl
  · rw [pending, List.set_eq_take_append_cons_drop, if_pos hlt, List.filterMap_append,
      List.filterMap_cons]
    cases telling t' with
    | none => rfl
    | some => rfl

end Pending

/-! ## Steps of a send -/

/-- What one step of a send does: it looks something up or tells another process; it
stores its message for nobody; it stores it for the stream; or it tells the stream. -/
inductive Ran (limit : Nat) (w : World Id Pid Bin) :
    Send Id Pid Bin Unit → Send Id Pid Bin Unit → World Id Pid Bin → Prop where
  | quiet {before later : Send Id Pid Bin Unit}
      (hbefore : ∀ message, telling (message, before) = none)
      (hlater : ∀ message, telling (message, later) = none) (hstage : Stage w.phase later) :
      Ran limit w before later w
  | stored (binary : Bin) (hphase : w.phase.running = false) :
      Ran limit w (storing binary) (.ret ()) (w.append limit binary).2
  | numbered (binary : Bin) (hphase : w.phase.isWaiting = false) :
      Ran limit w (numbering binary) (perform (.sendEvent (w.append limit binary).1 binary))
        (w.append limit binary).2
  | told (event : Nat) (binary : Bin) :
      Ran limit w (perform (.sendEvent event binary)) (.ret ())
        { w with mailbox := w.mailbox ++ [(event, binary)] }

section Steps

variable {limit : Nat} {last : Option Int} {w : World Id Pid Bin}

/-- The look for the general stream. -/
theorem ran_unrelated (hfind : Findable w.phase w.found) (binary : Bin) :
    Ran limit w (unrelated binary : Send Id Pid Bin Unit) (general binary w.found) w := by
  refine .quiet (fun _ => rfl) ?_ ?_
  · cases w.found <;> exact fun _ => rfl
  · cases hfound : w.found with
    | true =>
      refine .numbering binary ?_
      cases hphase : w.phase with
      | waiting =>
        rw [hphase, hfound] at hfind
        exact absurd hfind.symm Bool.false_ne_true
      | registered | replaying _ | live | ended => rfl
    | false =>
      refine .storing binary ?_
      cases hphase : w.phase with
      | replaying | live =>
        rw [hphase, hfound] at hfind
        exact absurd hfind Bool.false_ne_true
      | waiting | registered | ended => rfl

/-- A step of a send from where it can stand. -/
theorem Stage.ran {op : Op Id Pid Bin} {k : op.Res → Send Id Pid Bin Unit}
    (h : Stage w.phase (.call op k)) (limit : Nat) (hfind : Findable w.phase w.found) :
    Ran limit w (.call op k) (k (w.exec limit op).1) (w.exec limit op).2 := by
  generalize hprog : Prog.call op k = prog at h
  cases h with
  | sendMessage message =>
    cases hrelated : message.related with
    | none =>
      have hsend : StreamableHttp.sendMessage message =
          (StreamableHttp.unrelated message.binary : Send Id Pid Bin Unit) := by
        rw [StreamableHttp.sendMessage, hrelated]
      rw [hsend] at hprog ⊢
      cases hprog
      exact ran_unrelated hfind message.binary
    | some id =>
      have hsend : StreamableHttp.sendMessage message =
          (perform (.lookupStream id) >>= related message.binary : Send Id Pid Bin Unit) := by
        rw [StreamableHttp.sendMessage, hrelated]
      rw [hsend] at hprog ⊢
      cases hprog
      change Ran limit w _ (related message.binary (w.streams id)) w
      cases w.streams id with
      | none => exact .quiet (fun _ => rfl) (fun _ => rfl) (.unrelated _)
      | some pid => exact .quiet (fun _ => rfl) (fun _ => rfl) (.direct pid _)
  | unrelated binary =>
    cases hprog
    exact ran_unrelated hfind binary
  | direct =>
    cases hprog
    exact .quiet (fun _ => rfl) (fun _ => rfl) .done
  | storing binary hphase =>
    cases hprog
    exact .stored binary hphase
  | numbering binary hphase =>
    cases hprog
    exact .numbered binary hphase
  | telling event binary =>
    cases hprog
    exact .told event binary
  | done => cases hprog

/-! What a step of a send does to what is due and on its way. -/

theorem Kept.writing_stored (hkept : Kept limit w) (h : Writing last w []) (binary : Bin)
    (hphase : w.phase.running = false) : Writing last (w.append limit binary).2 [] := by
  have hdue := hkept.due_append last binary
  have hsame : (w.append limit binary).2.phase = w.phase := rfl
  unfold Writing at h ⊢
  rw [hsame]
  cases hw : w.phase with rw [hw] at h
  | waiting | registered => exact h
  | replaying | live =>
    rw [hw] at hphase
    cases hphase
  | ended =>
    rw [hdue]
    exact h.trans (List.prefix_append _ _)

theorem Kept.writing_numbered (hkept : Kept limit w) (h : Writing last w []) (binary : Bin)
    (hwaiting : w.phase.isWaiting = false) (hregistered : w.phase.isRegistered = false) :
    Writing last (w.append limit binary).2 [((w.append limit binary).1, binary)] := by
  have hdue := hkept.due_append last binary
  have hsame : (w.append limit binary).2.phase = w.phase := rfl
  have hstarts : w.written <+: w.due last → w.written <+: (w.append limit binary).2.due last := by
    rw [hdue]
    exact fun h => h.trans (List.prefix_append _ _)
  unfold Writing at h ⊢
  rw [hsame]
  cases hw : w.phase with rw [hw] at h
  | waiting =>
    rw [hw] at hwaiting
    cases hwaiting
  | registered =>
    rw [hw] at hregistered
    cases hregistered
  | replaying rest =>
    refine ⟨hstarts h.1, fun hopen => ?_⟩
    have heq := h.2 hopen
    change w.written ++ (rest ++ (w.mailbox ++ _)) = _
    rw [hdue, ← heq]
    simp only [List.append_assoc, List.nil_append]
  | live =>
    refine ⟨hstarts h.1, fun hopen => ?_⟩
    have heq := h.2 hopen
    change w.written ++ (w.mailbox ++ _) = _
    rw [hdue, ← heq]
    simp only [List.append_assoc, List.nil_append]
  | ended => exact hstarts h

theorem writing_told {event : Event Bin} (h : Writing last w [event]) :
    Writing last { w with mailbox := w.mailbox ++ [event] } [] := by
  unfold Writing at h ⊢
  cases hw : w.phase with rw [hw] at h
  | waiting | registered => cases h.2.1
  | replaying | live =>
    refine ⟨h.1, fun hopen => ?_⟩
    rw [List.append_nil]
    exact h.2 hopen
  | ended => exact h

variable {p : Sends Id Pid Bin} {w' : World Id Pid Bin} {phase phase' : Phase Bin}

/-- A step of a send keeps the invariant, if it appends only when nothing is pending and
the stream is not waiting for its replay. -/
theorem Running.ran (h : Running limit last p) {i : Nat} {message : Outgoing Id Bin}
    {before later : Send Id Pid Bin Unit} (hthread : p.threads[i]? = some (message, before))
    (hran : Ran limit p.world before later w')
    (happend : ∀ binary, before = storing binary ∨ before = numbering binary →
      p.world.phase.isRegistered = false ∧ pending p = [])
    (log : List (Nat × Foundation.Event (Op Id Pid Bin) Op.Res)) :
    Running limit last ⟨w', p.threads.set i (message, later), log⟩ := by
  obtain ⟨first, rest, hpending, hpending'⟩ := pending_set hthread (message, later) w' log
  have hstages : w'.phase = p.world.phase → Stage p.world.phase later →
      ∀ t ∈ p.threads.set i (message, later), Stage w'.phase t.2 := by
    intro hphase hlater t ht
    rw [hphase]
    rcases List.mem_or_eq_of_mem_set ht with hold | rfl
    · exact h.stages t hold
    · exact hlater
  cases hran with
  | quiet hbefore hlater hstage =>
    rw [hbefore] at hpending
    rw [hlater, ← hpending] at hpending'
    exact ⟨h.kept, h.findable, hstages rfl hstage, hpending' ▸ h.single, hpending' ▸ h.writing⟩
  | stored binary hphase =>
    obtain ⟨-, hnone⟩ := happend binary (.inl rfl)
    have hsame : pending ⟨(p.world.append limit binary).2, p.threads.set i (message, .ret ()), log⟩
        = [] := by
      rw [hpending', ← hnone, hpending]
      rfl
    have hwriting := h.writing
    rw [hnone] at hwriting
    refine ⟨h.kept.append binary, h.findable, hstages rfl .done, ?_, ?_⟩
    · rw [hsame]
      exact Nat.zero_le 1
    · rw [hsame]
      exact h.kept.writing_stored hwriting binary hphase
  | numbered binary hphase =>
    obtain ⟨hregistered, hnone⟩ := happend binary (.inr rfl)
    rw [hnone] at hpending
    obtain ⟨rfl, hrest⟩ := List.append_eq_nil_iff.mp hpending.symm
    obtain ⟨-, rfl⟩ := List.append_eq_nil_iff.mp hrest
    have hwriting := h.writing
    rw [hnone] at hwriting
    refine ⟨h.kept.append binary, h.findable, hstages rfl (.telling _ _), ?_, ?_⟩
    · rw [hpending']
      exact Nat.le_refl 1
    · rw [hpending']
      exact h.kept.writing_numbered hwriting binary hphase hregistered
  | told event binary =>
    have hsingle := h.single
    have hwriting := h.writing
    rw [hpending] at hsingle hwriting
    change (first ++ ([(event, binary)] ++ rest)).length ≤ 1 at hsingle
    have hfirst : first = [] := by
      rw [← List.length_eq_zero_iff]
      simp only [List.length_append, List.length_singleton] at hsingle
      omega
    have hrest : rest = [] := by
      rw [← List.length_eq_zero_iff]
      simp only [List.length_append, List.length_singleton] at hsingle
      omega
    subst hfirst hrest
    refine ⟨h.kept.same rfl rfl rfl, h.findable,
      hstages rfl .done, ?_, ?_⟩
    · rw [hpending']
      exact Nat.zero_le 1
    · rw [hpending']
      exact writing_told hwriting

/-! ## Steps of the stream -/

/-- The replay reads everything that is due so far. -/
theorem Kept.replayed (hkept : Kept limit w)
    (hroom : (w.history.filter (after last)).length ≤ limit) :
    w.store.replayAfter last =
      ({ w with phase := .replaying (w.store.replayAfter last), cut := w.history.length } :
        World Id Pid Bin).due last := by
  have hread : w.store.replayAfter last = w.history.filter (after last) := by
    rw [Store.replayAfter, hkept.stored, filter_prune hkept.increasing hroom]
  rw [hread, World.due, List.take_length, List.drop_length, List.append_nil]

/-- No send that has missed the stream is left when the replay is read. -/
theorem stages_replay (hwaiting : phase'.isWaiting = false)
    {t : Outgoing Id Bin × Send Id Pid Bin Unit} (h : Stage phase t.2)
    (hnone : storesUntold t = false) : Stage phase' t.2 := by
  obtain ⟨message, prog⟩ := t
  cases h with
  | sendMessage message => exact .sendMessage message
  | unrelated binary => exact .unrelated binary
  | direct pid binary => exact .direct pid binary
  | storing => cases hnone
  | numbering binary => exact .numbering binary hwaiting
  | telling event binary => exact .telling event binary
  | done => exact .done

/-- A stage that does not mind the phases before and after. -/
theorem Stage.move (hwaiting : phase'.isWaiting = true → phase.isWaiting = true)
    (hrunning : phase'.running = true → phase.running = true) {prog : Send Id Pid Bin Unit}
    (h : Stage phase prog) : Stage phase' prog := by
  cases h with
  | sendMessage message => exact .sendMessage message
  | unrelated binary => exact .unrelated binary
  | direct pid binary => exact .direct pid binary
  | storing binary h =>
    refine .storing binary (Bool.eq_false_iff.mpr fun h' => ?_)
    rw [hrunning h'] at h
    cases h
  | numbering binary h =>
    refine .numbering binary (Bool.eq_false_iff.mpr fun h' => ?_)
    rw [hwaiting h'] at h
    cases h
  | telling event binary => exact .telling event binary
  | done => exact .done

/-- A step of the stream or of the world around it keeps the invariant. -/
theorem Running.moved (h : Running limit last p) {m : Move Id Pid}
    (hC : Apart limit last p (.move m) = true) (hmove : p.world.move last m = some w') :
    Running limit last { p with world := w' } := by
  have hwriting := h.writing
  have hfind := h.findable
  have hkept := h.kept
  have hstages := h.stages
  unfold Writing at hwriting
  cases m with simp only [World.move] at hmove
  | register =>
    split at hmove
    · rename_i hphase
      cases hmove
      rw [hphase] at hwriting
      refine ⟨hkept.same rfl rfl rfl, rfl, ?_, h.single,
        hwriting⟩
      intro t ht
      exact (hstages t ht).move (by intro h; cases h) (by intro h; cases h)
    · cases hmove
  | replay =>
    split at hmove
    · rename_i hphase
      cases hmove
      rw [hphase] at hwriting hfind
      obtain ⟨hmail, htold, hwritten⟩ := hwriting
      simp only [Apart, Bool.and_eq_true, List.all_eq_true, Bool.not_eq_true',
        decide_eq_true_eq] at hC
      refine ⟨⟨hkept.increasing, hkept.bounded, hkept.stored, Nat.le_refl _⟩, hfind, ?_, h.single,
        ?_, fun _ => ?_⟩
      · intro t ht
        exact stages_replay rfl (hstages t ht) (hC.1 t ht)
      · rw [hwritten]
        exact List.nil_prefix
      · change p.world.written ++ (_ ++ (p.world.mailbox ++ pending p)) = _
        rw [hwritten, hmail, htold, List.append_nil, List.append_nil]
        exact hkept.replayed hC.2
    · cases hmove
  | write =>
    split at hmove
    · rename_i hphase
      cases hmove
      rw [hphase] at hwriting hfind
      refine ⟨hkept.same rfl rfl rfl, hfind, ?_, h.single,
        hwriting⟩
      intro t ht
      exact (hstages t ht).move (by intro h; cases h) (by rw [hphase]; exact fun h => h)
    · rename_i event rest hphase
      rw [hphase] at hwriting hfind
      split at hmove
      · rename_i hclosed
        cases hmove
        refine ⟨hkept.same rfl rfl rfl, hfind, ?_,
          h.single, hwriting.1, fun hopen => ?_⟩
        · intro t ht
          exact (hstages t ht).move (by intro h; cases h) (by rw [hphase]; exact fun h => h)
        · rw [hclosed] at hopen
          cases hopen
      · rename_i hopen
        cases hmove
        have heq := hwriting.2 (Bool.eq_false_iff.mpr hopen)
        have heq' : (p.world.written ++ [event]) ++ (rest ++ (p.world.mailbox ++ pending p)) =
            p.world.due last := by
          rw [← heq, List.append_assoc]
          rfl
        refine ⟨hkept.same rfl rfl rfl, hfind, ?_,
          h.single, ⟨_, heq'⟩, fun _ => heq'⟩
        intro t ht
        exact (hstages t ht).move (by intro h; cases h) (by rw [hphase]; exact fun _ => rfl)
    · cases hmove
  | receive =>
    split at hmove
    · rename_i event rest hphase hmail
      rw [hphase] at hwriting hfind
      rw [hmail] at hwriting
      split at hmove
      · cases hmove
        refine ⟨hkept.same rfl rfl rfl, trivial, ?_, h.single, hwriting.1⟩
        intro t ht
        exact (hstages t ht).move (by intro h; cases h) (by intro h; cases h)
      · rename_i hopen
        cases hmove
        have heq := hwriting.2 (Bool.eq_false_iff.mpr hopen)
        have heq' : (p.world.written ++ [event]) ++ (rest ++ pending p) = p.world.due last := by
          rw [← heq, List.append_assoc]
          rfl
        refine ⟨hkept.same rfl rfl rfl, h.findable, hstages, h.single, ?_⟩
        change (match p.world.phase with
          | .waiting | .registered => _
          | .replaying rest => _
          | .live => _
          | .ended => _)
        rw [hphase]
        exact ⟨⟨_, heq'⟩, fun _ => heq'⟩
    · cases hmove
  | close =>
    cases hmove
    refine ⟨hkept.same rfl rfl rfl, hfind, hstages, h.single, ?_⟩
    -- the equations are claimed of an open connection only
    cases hphase : p.world.phase with rw [hphase] at hwriting
    | waiting | registered | ended => exact hwriting
    | replaying | live => exact ⟨hwriting.1, fun hopen => absurd hopen.symm Bool.false_ne_true⟩
  | stop =>
    split at hmove
    · rename_i hphase
      cases hmove
      rw [hphase] at hwriting
      refine ⟨hkept.same rfl rfl rfl, trivial, ?_, h.single, hwriting.1⟩
      intro t ht
      exact (hstages t ht).move (by intro h; cases h) (by intro h; cases h)
    · cases hmove
  | unregister =>
    split at hmove
    · rename_i hphase
      cases hmove
      refine ⟨hkept.same rfl rfl rfl, ?_, hstages, h.single, h.writing⟩
      rw [hphase]
      trivial
    · cases hmove
  | otherSession =>
    cases hmove
    refine ⟨⟨hkept.increasing, ?_, hkept.stored, hkept.cut_le⟩, hfind, hstages, h.single,
      h.writing⟩
    intro e he
    exact Nat.le_succ_of_le (hkept.bounded e he)
  | streams =>
    cases hmove
    exact ⟨hkept.same rfl rfl rfl, hfind, hstages, h.single, h.writing⟩

/-- Every step allowed by `Apart` keeps the invariant. -/
theorem Running.step (h : Running limit last p) {a : Step Id Pid Bin}
    (hC : Apart limit last p a = true) {q : Sends Id Pid Bin}
    (hs : (service limit last).step p a = some q) : Running limit last q := by
  rcases Service.step_cases hs with ⟨message, -, -, rfl⟩ |
    ⟨i, choice, message, op, k, r, w, rfl, hthread, hexec, rfl⟩ | ⟨m, w, rfl, hmove, rfl⟩
  · -- a send that arrives has nothing to tell yet
    have htelling : telling ((message, sendMessage message) :
        Outgoing Id Bin × Send Id Pid Bin Unit) = none := by
      cases hrelated : message.related with
      | none | some => simp only [telling, sendMessage, hrelated]; rfl
    have hpending : pending ({ p with
        threads := p.threads ++ [(message, sendMessage message)] } : Sends Id Pid Bin) =
          pending p := by
      rw [pending, List.filterMap_append, List.filterMap_cons_none htelling, List.filterMap_nil,
        List.append_nil]
      rfl
    refine ⟨h.kept, h.findable, ?_, ?_, ?_⟩
    · intro t ht
      rcases List.mem_append.mp ht with hold | hnew
      · exact h.stages t hold
      · rw [List.mem_singleton.mp hnew]
        exact .sendMessage message
    · exact Nat.le_trans (Nat.le_of_eq (congrArg List.length hpending)) h.single
    · rw [show (service limit last).handler message = sendMessage message from rfl, hpending]
      exact h.writing
  · have hout : p.world.exec limit op = (r, w) := Option.some.inj hexec
    obtain ⟨rfl, rfl⟩ : (p.world.exec limit op).1 = r ∧ (p.world.exec limit op).2 = w := by
      rw [hout]
      exact ⟨rfl, rfl⟩
    have hran := (h.stages _ (List.mem_of_getElem? hthread)).ran limit h.findable
    refine h.ran hthread hran (fun binary hprog => ?_) _
    simp only [Apart, hthread] at hC
    rcases hprog with hprog | hprog
    · cases hprog
      simpa using hC
    · cases hprog
      simpa using hC
  · exact h.moved hC hmove

end Steps

/-- A stream that keeps apart from the sends writes increasing numbers and leaves out
nothing up to the last one it has written. -/
theorem written_when_apart {limit : Nat} {last : Option Int} {p : Sends Id Pid Bin}
    (h : (service limit last).ReachUnder (fun p a => Apart limit last p a = true)
      (Pool.idle {}) p) :
    (p.world.written.map Prod.fst).Pairwise (· < ·) ∧
      ∀ e ∈ p.world.history, after last e = true →
        ∀ l ∈ p.world.written, e.1 ≤ l.1 → e ∈ p.world.written := by
  have hstart : Running limit last (Pool.idle {} : Sends Id Pid Bin) := by
    refine ⟨⟨List.Pairwise.nil, ?_, ?_, Nat.le_refl 0⟩, rfl, ?_, Nat.zero_le 1, rfl, rfl, rfl⟩
    · intro e he
      cases he
    · exact List.drop_nil.symm
    · intro t ht
      cases ht
  have hrunning : Running limit last p :=
    h.invariant (Running limit last) (fun _ _ _ hp hC hs => hp.step hC hs) hstart
  obtain ⟨later, hdue⟩ := hrunning.written_prefix
  have hincreasing : (p.world.due last).Pairwise fun e e' => e.1 < e'.1 :=
    hrunning.kept.increasing.sublist due_sublist
  rw [← hdue] at hincreasing
  obtain ⟨hwritten, -, hbefore⟩ := List.pairwise_append.mp hincreasing
  refine ⟨List.pairwise_map.mpr hwritten, ?_⟩
  intro e he hafter l hl hle
  have hmem := mem_due he hafter
  rw [← hdue] at hmem
  rcases List.mem_append.mp hmem with hin | hlater
  · exact hin
  · exact absurd (hbefore l hl e hlater) (Nat.not_lt_of_le hle)

/-- A message stored before the stream opens is replayed and one sent later follows it. -/
theorem written_stored_and_live :
    ∃ p : Sends Nat Nat Nat, p.world.history = [(1, 10), (2, 20)] ∧
      p.world.written = [(1, 10), (2, 20)] ∧
      (p.world.written.map Prod.fst).Pairwise (· < ·) ∧
      ∀ e ∈ p.world.history, after none e = true →
        ∀ l ∈ p.world.written, e.1 ≤ l.1 → e ∈ p.world.written := by
  have hrun : ((service maxEventsPerSession none).runsIf (Apart maxEventsPerSession none)
      (Pool.idle {} : Sends Nat Nat Nat)
      [.arrive { binary := 10 }, .run 0 (), .run 0 (), .move .register, .move .replay,
        .move .write, .move .write, .arrive { binary := 20 }, .run 1 (), .run 1 (), .run 1 (),
        .move .receive]).map (fun p => (p.world.history, p.world.written)) =
      some ([(1, 10), (2, 20)], [(1, 10), (2, 20)]) := by
    decide +kernel
  obtain ⟨p, hp, hout⟩ := Option.map_eq_some_iff.mp hrun
  obtain ⟨hhistory, hwritten⟩ := Prod.mk.inj hout
  exact ⟨p, hhistory, hwritten, written_when_apart (Service.reachUnder_of_runsIf hp)⟩

/-- Three sends that meet the opening of the stream. One looks for the stream before it is
registered and stores after the replay: its message is never written, though a later one
is. One stores and tells between registration and replay: its message is written twice.
Two store in one order and tell in the other: the numbers decrease. -/
theorem lost_doubled_and_overtaken :
    ∃ lost doubled overtaken : Sends Nat Nat Nat,
      ((service maxEventsPerSession none).Reach (Pool.idle {}) lost ∧
        lost.world.history = [(1, 10), (2, 20)] ∧ lost.world.written = [(2, 20)]) ∧
      ((service maxEventsPerSession none).Reach (Pool.idle {}) doubled ∧
        doubled.world.history = [(1, 10)] ∧ doubled.world.written = [(1, 10), (1, 10)]) ∧
      ((service maxEventsPerSession none).Reach (Pool.idle {}) overtaken ∧
        overtaken.world.history = [(1, 10), (2, 20)] ∧
        overtaken.world.written = [(2, 20), (1, 10)]) := by
  have hruns := Service.exists_of_runs (S := service maxEventsPerSession none)
    (p := (Pool.idle {} : Sends Nat Nat Nat)) (f := fun p => (p.world.history, p.world.written))
  obtain ⟨lost, hlost, hout⟩ := hruns
    [.arrive { binary := 10 }, .run 0 (), .move .register, .move .replay, .run 0 (), .move .write,
      .arrive { binary := 20 }, .run 1 (), .run 1 (), .run 1 (), .move .receive]
    ([(1, 10), (2, 20)], [(2, 20)]) (by decide +kernel)
  obtain ⟨doubled, hdoubled, hout'⟩ := hruns
    [.move .register, .arrive { binary := 10 }, .run 0 (), .run 0 (), .run 0 (), .move .replay,
      .move .write, .move .write, .move .receive]
    ([(1, 10)], [(1, 10), (1, 10)]) (by decide +kernel)
  obtain ⟨overtaken, hovertaken, hout''⟩ := hruns
    [.move .register, .move .replay, .move .write, .arrive { binary := 10 },
      .arrive { binary := 20 }, .run 0 (), .run 1 (), .run 0 (), .run 1 (), .run 1 (), .run 0 (),
      .move .receive, .move .receive]
    ([(1, 10), (2, 20)], [(2, 20), (1, 10)]) (by decide +kernel)
  exact ⟨lost, doubled, overtaken, ⟨hlost, Prod.mk.inj hout⟩, ⟨hdoubled, Prod.mk.inj hout'⟩,
    ⟨hovertaken, Prod.mk.inj hout''⟩⟩

end NoizuMcp.Transport.StreamableHttp
