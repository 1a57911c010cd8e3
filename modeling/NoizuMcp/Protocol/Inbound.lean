import NoizuMcp.Protocol.PeerRuns

/-!
# Requests of the other end

A request that a peer hands on is answered once: by the first answer its owner gives,
unless the other end has cancelled it. A cancellation leaves a mark behind, which the
next answer under the same id uses up. If the id is used again while the mark is there,
the mark takes away the answer to the new request. Without such a reuse, no id is
pending and marked at once, and every request has its answer
(`inbound_answered`).
-/

set_option autoImplicit false

namespace NoizuMcp.Protocol

open Foundation Foundation.Runs

/-- The request that the owner is given to work on. -/
def Given.dispatched (given : Given) : Option Id :=
  given.effects.findSome? fun
    | .dispatch _ id _ => some id
    | _ => none

/-- The answers to a request among what the owner sends. -/
def responses (id : Id) (givens : List Given) : List Message :=
  (givens.flatMap Given.sent).filter (·.answered = some id)

theorem responses_append (id : Id) (first second : List Given) :
    responses id (first ++ second) = responses id first ++ responses id second := by
  simp [responses]

theorem responses_cons (id : Id) (given : Given) (rest : List Given) :
    responses id (given :: rest) = responses id [given] ++ responses id rest :=
  responses_append id [given] rest

namespace Peer

/-- No request is pending and cancelled at once. -/
def Exclusive (peer : Peer) : Prop := ∀ id ∈ peer.cancelledIn, peer.pendingIn.lookup id = none

/-- The call hands on no request under an id that is still marked as cancelled. -/
def Clean (peer : Peer) (call : Call) : Prop :=
  ∀ next ∈ peer.perform call, ∀ id, next.2.dispatched = some id → id ∉ peer.cancelledIn

variable {peer peer' : Peer} {call : Call} {given : Given} {id : Id}

theorem not_dispatched_of_passive (h : ∀ effect ∈ given.effects, effect.passive = true) :
    given.dispatched = none := by
  rw [Given.dispatched, List.findSome?_eq_none_iff]
  intro effect heffect
  cases effect with
  | dispatch => exact absurd (h _ heffect) Bool.false_ne_true
  | _ => rfl

/-- A request that is handed on is pending, and its mark is what it was. -/
theorem dispatched_inbound (h : peer.perform call = some (peer', given))
    (hid : given.dispatched = some id) :
    peer'.cancelledIn = peer.cancelledIn ∧ (peer'.pendingIn.lookup id).isSome = true := by
  cases perform_inbound h with
  | dispatched =>
    cases hid
    exact ⟨rfl, by simp⟩
  | cancelled | dropped | replied => cases hid
  | other _ _ _ _ heffects =>
    rw [not_dispatched_of_passive heffects] at hid
    cases hid

/-! ## Pending and cancelled -/

theorem exclusive_step (hpeer : peer.Exclusive) (hclean : peer.Clean call)
    (h : peer.perform call = some (peer', given)) : peer'.Exclusive := by
  cases hin : perform_inbound h with
  | @dispatched id =>
    intro id' hid'
    have hne : id' ≠ id := by
      rintro rfl
      exact hclean _ h id' rfl hid'
    rw [AList.lookup_insert_ne hne]
    exact hpeer id' hid'
  | @cancelled =>
    intro id' hid'
    rw [Table.lookup_erase_ite]
    split
    · rfl
    · rename_i hne
      exact hpeer id' ((Finset.mem_insert.mp hid').resolve_left hne)
  | @dropped =>
    intro id' hid'
    exact hpeer id' (Finset.mem_of_mem_erase hid')
  | @replied =>
    intro id' hid'
    rw [Table.lookup_erase_ite]
    split
    · rfl
    · exact hpeer id' hid'
  | other hsame =>
    obtain ⟨hpending, hcancelled⟩ := Prod.mk.inj hsame
    intro id' hid'
    rw [hpending]
    exact hpeer id' (hcancelled ▸ hid')

/-- A request that is handed on under a marked id is pending and cancelled at once. -/
theorem clean_of_exclusive (h : ∀ next ∈ peer.perform call, next.1.Exclusive) :
    peer.Clean call := by
  intro next hnext id hid hmarked
  obtain ⟨hcancelled, hpending⟩ := dispatched_inbound hnext hid
  have hnone := h next hnext id (hcancelled ▸ hmarked)
  rw [hnone] at hpending
  cases hpending

/-- In the states along a run no id is pending and cancelled at once, just if no call
hands on a request under a marked id. -/
theorem exclusive_iff_clean (hpeer : peer.Exclusive) (calls : List Call) :
    (∀ first rest last givens, calls = first ++ rest →
      run perform peer first = some (last, givens) → last.Exclusive) ↔
      All perform Clean peer calls :=
  forall_states_iff Exclusive
    (fun _ _ hs => ⟨clean_of_exclusive, fun hclean _ hnext => exclusive_step hs hclean hnext⟩) hpeer

/-! ## Answers -/

/-- The request is pending and was not cancelled. -/
structure Open (peer : Peer) (id : Id) : Prop where
  pending : (peer.pendingIn.lookup id).isSome = true
  unmarked : id ∉ peer.cancelledIn

/-- Answers to other requests only. -/
theorem responses_eq_nil (h : ∀ message ∈ given.sent, message.answered ≠ some id) :
    responses id [given] = [] := by
  rw [responses, List.flatMap_singleton, List.filter_eq_nil_iff]
  intro message hmessage
  simpa using h message hmessage

theorem responses_other (hasked : call.asked ≠ some id)
    (h : ∀ message ∈ given.sent, ∀ id, message.answered = some id → call.asked = some id) :
    responses id [given] = [] :=
  responses_eq_nil fun message hmessage hid => hasked (h message hmessage id hid)

/-- A request that is not pending is not answered, and only a request makes it pending. -/
theorem closed_step (hclosed : peer.pendingIn.lookup id = none) (hasked : call.asked ≠ some id)
    (h : peer.perform call = some (peer', given)) :
    peer'.pendingIn.lookup id = none ∧ responses id [given] = [] := by
  cases perform_inbound h with
  | @dispatched id' =>
    have hne : id ≠ id' := fun heq => hasked (congrArg some heq.symm)
    exact ⟨(AList.lookup_insert_ne hne).trans hclosed, rfl⟩
  | @cancelled =>
    refine ⟨?_, rfl⟩
    rw [Table.lookup_erase_ite, hclosed, ite_self]
  | dropped => exact ⟨hclosed, rfl⟩
  | @replied _ _ reply _ _ hpending hreply =>
    refine ⟨?_, responses_eq_nil fun message hmessage => ?_⟩
    · rw [Table.lookup_erase_ite, hclosed, ite_self]
    · -- the reply is to a request that is pending
      have hmessage : message = reply := by simpa [Given.sent] using hmessage
      rw [hmessage, hreply]
      rintro ⟨rfl⟩
      rw [hclosed] at hpending
      cases hpending
  | other hsame _ _ hsent =>
    obtain ⟨hpending, _⟩ := Prod.mk.inj hsame
    exact ⟨hpending ▸ hclosed, responses_other hasked hsent⟩

/-- An open request stays open until it is cancelled or answered, and its answer goes out. -/
theorem open_step (hopen : peer.Open id) (hasked : call.asked ≠ some id)
    (hcancels : call.cancels ≠ some id) (h : peer.perform call = some (peer', given)) :
    (call.answers ≠ some id ∧ peer'.Open id ∧ responses id [given] = []) ∨
      (call.answers = some id ∧ peer'.pendingIn.lookup id = none ∧
        (responses id [given]).length = 1) := by
  cases perform_inbound h with
  | @dispatched id' =>
    have hne : id ≠ id' := fun heq => hasked (congrArg some heq.symm)
    refine .inl ⟨(fun heq => by cases heq), ⟨?_, hopen.unmarked⟩, rfl⟩
    rw [AList.lookup_insert_ne hne]
    exact hopen.pending
  | @cancelled id' _ _ htarget =>
    have hne : id ≠ id' := by
      rintro rfl
      exact hcancels htarget
    refine .inl ⟨(fun heq => by cases heq), ⟨?_, ?_⟩, rfl⟩
    · rw [AList.lookup_erase_ne hne]
      exact hopen.pending
    · exact fun hmem => hopen.unmarked ((Finset.mem_insert.mp hmem).resolve_left hne)
  | @dropped _ id' hanswers hmarked =>
    have hne : id ≠ id' := by
      rintro rfl
      exact hopen.unmarked hmarked
    refine .inl ⟨?_, ⟨hopen.pending, ?_⟩, rfl⟩
    · rw [hanswers]
      exact fun heq => hne (Option.some.inj heq).symm
    · exact fun hmem => hopen.unmarked (Finset.mem_of_mem_erase hmem)
  | @replied _ id' reply hanswers _ _ hreply =>
    by_cases heq : id = id'
    · subst heq
      refine .inr ⟨hanswers, AList.lookup_erase _ _, ?_⟩
      simp [responses, Given.sent, hreply]
    · refine .inl ⟨?_, ⟨?_, hopen.unmarked⟩, responses_eq_nil fun message hmessage => ?_⟩
      · rw [hanswers]
        exact fun h => heq (Option.some.inj h).symm
      · rw [AList.lookup_erase_ne heq]
        exact hopen.pending
      · have hmessage : message = reply := by simpa [Given.sent] using hmessage
        rw [hmessage, hreply]
        exact fun h => heq (Option.some.inj h).symm
  | other hsame _ hanswers hsent =>
    obtain ⟨hpending, hmarks⟩ := Prod.mk.inj hsame
    refine .inl ⟨?_, ⟨?_, ?_⟩, responses_other hasked hsent⟩
    · intro hid
      have hnone := hanswers id hid
      have hsome := hopen.pending
      rw [hnone] at hsome
      cases hsome
    · exact hpending ▸ hopen.pending
    · exact hmarks ▸ hopen.unmarked

variable {calls : List Call} {givens : List Given}

/-- Nothing goes out under an id along a run whose steps send nothing under it. -/
theorem quiet_run (I : Peer → Prop) (C : Call → Prop)
    (hquiet : ∀ {peer peer' call given}, I peer → C call → peer.perform call = some (peer', given) →
      responses id [given] = [] ∧ I peer')
    (hI : I peer) (hC : ∀ call ∈ calls, C call) (h : run perform peer calls = some (peer', givens)) :
    responses id givens = [] ∧ I peer' := by
  induction calls generalizing peer givens with
  | nil =>
    cases h
    exact ⟨rfl, hI⟩
  | cons _ _ ih =>
    obtain ⟨next, given, givens', hstep, hrest, rfl⟩ := run_cons_iff.mp h
    rw [List.forall_mem_cons] at hC
    obtain ⟨hnone, hnext⟩ := hquiet hI hC.1 hstep
    obtain ⟨hlater, hlast⟩ := ih hnext hC.2 hrest
    exact ⟨by rw [responses_cons, hnone, hlater, List.nil_append], hlast⟩

theorem closed_run (hclosed : peer.pendingIn.lookup id = none)
    (hasked : ∀ call ∈ calls, call.asked ≠ some id)
    (h : run perform peer calls = some (peer', givens)) :
    responses id givens = [] :=
  (quiet_run (fun peer => peer.pendingIn.lookup id = none) (fun call => call.asked ≠ some id)
    (fun hclosed hasked hstep => (closed_step hclosed hasked hstep).symm) hclosed hasked h).1

/-- The first answer to an open request goes out, and no other. -/
theorem open_run (hopen : peer.Open id) (hasked : ∀ call ∈ calls, call.asked ≠ some id)
    (hcancels : ∀ call ∈ calls, call.cancels ≠ some id)
    (hanswers : ∃ call ∈ calls, call.answers = some id)
    (h : run perform peer calls = some (peer', givens)) :
    (responses id givens).length = 1 := by
  induction calls generalizing peer givens with
  | nil =>
    obtain ⟨call, hcall, _⟩ := hanswers
    cases hcall
  | cons call rest ih =>
    obtain ⟨next, given, givens', hstep, hrest, rfl⟩ := run_cons_iff.mp h
    have hasked' : ∀ c ∈ rest, c.asked ≠ some id := fun c hc => hasked c (List.mem_cons_of_mem _ hc)
    rw [responses_cons, List.length_append]
    rcases open_step hopen (hasked call List.mem_cons_self) (hcancels call List.mem_cons_self)
      hstep with ⟨hother, hnext, hnone⟩ | ⟨_, hnext, hone⟩
    · obtain ⟨answer, hanswer, hid⟩ := hanswers
      have hlater : answer ∈ rest := by
        rcases List.mem_cons.mp hanswer with rfl | hlater
        · exact absurd hid hother
        · exact hlater
      rw [hnone, ih hnext hasked' (fun c hc => hcancels c (List.mem_cons_of_mem _ hc))
        ⟨answer, hlater, hid⟩ hrest, List.length_nil]
    · rw [hone, closed_run hnext hasked' hrest, List.length_nil]

/-- After a cancellation the request is not pending. -/
theorem cancelled_closed (hcancels : call.cancels = some id)
    (h : peer.perform call = some (peer', given)) : peer'.pendingIn.lookup id = none := by
  cases perform_inbound h with
  | dispatched => cases hcancels
  | @cancelled id' _ _ htarget =>
    have heq : some id' = some id := htarget.symm.trans hcancels
    cases heq
    exact AList.lookup_erase _ _
  | @dropped call _ hanswers => cases call <;> cases hanswers <;> cases hcancels
  | @replied call _ _ hanswers => cases call <;> cases hanswers <;> cases hcancels
  | other hsame hnone =>
    obtain ⟨hpending, _⟩ := Prod.mk.inj hsame
    exact hpending ▸ hnone id hcancels

/-- While an id is marked, nothing is sent under it; an answer takes the mark away. -/
theorem marked_step (hmarked : id ∈ peer.cancelledIn) (hasked : call.asked ≠ some id)
    (h : peer.perform call = some (peer', given)) :
    responses id [given] = [] ∧ (call.answers ≠ some id → id ∈ peer'.cancelledIn) := by
  cases perform_inbound h with
  | dispatched => exact ⟨rfl, fun _ => hmarked⟩
  | cancelled => exact ⟨rfl, fun _ => Finset.mem_insert_of_mem hmarked⟩
  | @dropped _ _ hanswers =>
    refine ⟨rfl, fun hother => Finset.mem_erase.mpr ⟨?_, hmarked⟩⟩
    rintro rfl
    exact hother hanswers
  | @replied _ _ reply _ hunmarked _ hreply =>
    refine ⟨responses_eq_nil fun message hmessage => ?_, fun _ => hmarked⟩
    have hmessage : message = reply := by simpa [Given.sent] using hmessage
    rw [hmessage, hreply]
    rintro ⟨rfl⟩
    exact hunmarked hmarked
  | other hsame _ _ hsent =>
    obtain ⟨_, hmarks⟩ := Prod.mk.inj hsame
    exact ⟨responses_other hasked hsent, fun _ => hmarks ▸ hmarked⟩

theorem marked_run (hmarked : id ∈ peer.cancelledIn)
    (hothers : ∀ call ∈ calls, call.asked ≠ some id ∧ call.answers ≠ some id)
    (h : run perform peer calls = some (peer', givens)) :
    responses id givens = [] ∧ id ∈ peer'.cancelledIn := by
  refine quiet_run (fun peer => id ∈ peer.cancelledIn) _ ?_ hmarked hothers h
  intro peer peer' call given hmarked hother hstep
  obtain ⟨hnone, hnext⟩ := marked_step hmarked hother.1 hstep
  exact ⟨hnone, hnext hother.2⟩

/-- What nobody answers is not answered. -/
theorem silent_run (hothers : ∀ call ∈ calls, call.asked ≠ some id ∧ call.answers ≠ some id)
    (h : run perform peer calls = some (peer', givens)) : responses id givens = [] := by
  refine (quiet_run (fun _ => True) _ ?_ trivial hothers h).1
  intro peer peer' call given _ hother hstep
  refine ⟨?_, trivial⟩
  cases perform_inbound hstep with
  | dispatched => rfl
  | cancelled => rfl
  | dropped => rfl
  | @replied _ _ reply hanswer _ _ hreply =>
    refine responses_eq_nil fun message hmessage => ?_
    have hmessage : message = reply := by simpa [Given.sent] using hmessage
    rw [hmessage, hreply, ← hanswer]
    exact hother.2
  | other _ _ _ hsent => exact responses_other hother.1 hsent

/-- Under a marked id the only answer is lost. -/
theorem lost_run {first rest : List Call} {answer : Call} (hmarked : id ∈ peer.cancelledIn)
    (hasked : ∀ call ∈ first ++ answer :: rest, call.asked ≠ some id)
    (hanswers : ∀ call ∈ first ++ rest, call.answers ≠ some id)
    (h : run perform peer (first ++ answer :: rest) = some (peer', givens)) :
    responses id givens = [] := by
  obtain ⟨middle, before, after, hfirst, hsecond, rfl⟩ := run_append_iff.mp h
  obtain ⟨next, given, givens', hstep, hrest, rfl⟩ := run_cons_iff.mp hsecond
  obtain ⟨hbefore, hmiddle⟩ := marked_run hmarked (fun c hc =>
    ⟨hasked c (List.mem_append_left _ hc), hanswers c (List.mem_append_left _ hc)⟩) hfirst
  have hgiven := (marked_step hmiddle (hasked answer (by simp)) hstep).1
  have hafter := silent_run (fun c hc =>
    ⟨hasked c (by simp [hc]), hanswers c (List.mem_append_right _ hc)⟩) hrest
  rw [responses_append, responses_cons, hbefore, hgiven, hafter]
  rfl

/-- Along every run of a peer no id is pending and cancelled at once, just if no request
is handed on under an id whose cancellation mark is still there. Of a request that is
handed on, up to the next request under its id: if the id was not marked, the request is
not cancelled and its owner answers it, then exactly one answer is sent; of an owner that
answers once it is sent only then; and after a cancellation none is. -/
theorem inbound_answered (role : Role) (info : Implementation) (capabilities : Json)
    (instructions : Option String) (calls : List Call) :
    ((∀ first rest last givens, calls = first ++ rest →
        run perform (new role info capabilities instructions) first = some (last, givens) →
        ∀ id ∈ last.cancelledIn, last.pendingIn.lookup id = none) ↔
      All perform Clean (new role info capabilities instructions) calls) ∧
    ∀ peer request next given id, perform peer request = some (next, given) →
      given.dispatched = some id →
      (∀ after last givens, run perform next after = some (last, givens) →
        (∀ call ∈ after, call.asked ≠ some id) → (∀ call ∈ after, call.cancels ≠ some id) →
        ((∃ call ∈ after, call.answers = some id) → peer.Clean request →
          (responses id givens).length = 1) ∧
        (∀ first answer rest, after = first ++ answer :: rest → answer.answers = some id →
          (∀ call ∈ first ++ rest, call.answers ≠ some id) →
          ((responses id givens).length = 1 ↔ peer.Clean request))) ∧
      (∀ between cancel after middle marked last mids given givens,
        run perform next between = some (middle, mids) →
        middle.perform cancel = some (marked, given) → cancel.cancels = some id →
        run perform marked after = some (last, givens) →
        (∀ call ∈ after, call.asked ≠ some id) → responses id givens = []) := by
  refine ⟨exclusive_iff_clean (fun _ h => absurd h (Finset.notMem_empty _)) calls, ?_⟩
  intro peer request next given id hrequest hid
  obtain ⟨hcancelled, hpending⟩ := dispatched_inbound hrequest hid
  have hclean_iff : peer.Clean request ↔ id ∉ next.cancelledIn := by
    rw [hcancelled]
    refine ⟨fun hclean => hclean (next, given) hrequest id hid, fun hunmarked => ?_⟩
    intro next' hnext' id' hid'
    cases hrequest.symm.trans hnext'
    cases hid.symm.trans hid'
    exact hunmarked
  constructor
  · intro after last givens hrun hasked hcancels
    have hone : (∃ call ∈ after, call.answers = some id) → peer.Clean request →
        (responses id givens).length = 1 := fun hanswers hclean =>
      open_run ⟨hpending, hclean_iff.mp hclean⟩ hasked hcancels hanswers hrun
    refine ⟨hone, ?_⟩
    rintro first answer rest rfl hanswer honly
    refine ⟨fun hlength => hclean_iff.mpr fun hmarked => ?_,
      hone ⟨answer, List.mem_append_right _ List.mem_cons_self, hanswer⟩⟩
    rw [lost_run hmarked hasked honly hrun] at hlength
    cases hlength
  · intro between cancel after middle marked last mids given givens _ hcancel hcancels hrun hasked
    exact closed_run (cancelled_closed hcancels hcancel) hasked hrun

end Peer

namespace Peer.Sample

def server : Peer := new .server { name := .str "sample", version := .str "1.0.0" } (.obj []) none

def asking (n : Int) : Call := .ingest (.request (.int n) "tools/call" none)

def cancelling (n : Int) : Call :=
  .ingest (.notification "notifications/cancelled" (some [("requestId", .int n)]))

def handshake : List Call :=
  [.ingest (.request (.int 1) "initialize" none),
    .ingest (.notification "notifications/initialized" none)]

/-- A call is cancelled, its owner drops it, and its id is used for another call. -/
def reuse : List Call := handshake ++ [asking 7, cancelling 7, asking 7]

/-- The server once it is ready. -/
def ready : Peer := { server with phase := .ready }

/-- The server while it works on a call. -/
def busy : Peer := { ready with pendingIn := AList.insert (.int 7) "tools/call" ∅ }

end Peer.Sample

namespace Peer

open Sample

/-- One call, one answer. -/
theorem inbound_answered_sample :
    perform ready (asking 7) =
      some (busy, { effects := [.dispatch "tools/call" (.int 7) none] }) ∧
    ((run perform busy [.respond (.int 7) [], .respond (.int 7) []]).map fun last =>
      (responses (.int 7) last.2).length) = some 1 := by
  have hcall : perform ready (asking 7) =
      some (busy, { effects := [.dispatch "tools/call" (.int 7) none] }) := rfl
  refine ⟨hcall, ?_⟩
  obtain ⟨⟨last, givens⟩, hrun⟩ := Option.isSome_iff_exists.mp
    (show (run perform busy [.respond (.int 7) [], .respond (.int 7) []]).isSome = true from rfl)
  have hsample := inbound_answered .server server.localInfo (.obj []) none []
  have hone := ((hsample.2 ready (asking 7) busy _ (.int 7) hcall rfl).1 _ last givens hrun
    (by simp [Call.asked]) (by simp [Call.cancels])).1 ⟨_, List.mem_cons_self, rfl⟩
    (clean_of_exclusive fun next hnext => by
      cases hnext
      exact fun _ h => absurd h (Finset.notMem_empty _))
  rw [hrun, Option.map_some, hone]

/-- The answer to the second call is lost, and the id is pending and cancelled at once. -/
theorem reused_id_unanswered :
    ((run perform server reuse).map fun last =>
        (last.1.cancelledIn, (last.1.pendingIn.lookup (.int 7)).isSome)) =
      some ({.int 7}, true) ∧
    ((run perform server (reuse ++ [.respond (.int 7) []])).map fun last =>
      responses (.int 7) last.2) = some [] := by
  decide +kernel

end Peer

end NoizuMcp.Protocol
