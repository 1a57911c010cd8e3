import NoizuMcp.Foundation.Runs
import NoizuMcp.Protocol.Peer

/-!
# Runs of a peer

The calls an owning process makes on a peer, in any order: decoded messages that it feeds
in, answers to requests of the other end, and requests of its own. A call that raises ends
the run.

`perform_inbound` says once what a call can do to the requests of the other end.
-/

set_option autoImplicit false

namespace NoizuMcp.Protocol

open Foundation Foundation.Runs

/-- A call on a peer. A request is tagged with its own id or with what the owner hands
over; the tag of the initialize request is the peer's own. -/
inductive Call where
  | ingest (message : Message)
  | respond (id : Id) (result : Fields)
  | respondError (id : Id) (error : RpcError)
  | request (method : String) (params : Option Fields) (caller : Option Nat) (token : Option Id)
  | cancelOut (id : Id) (reason : Option String)
  | initRequest
  | initialized

/-- What a call gives its owner to do: effects, and a message to send. -/
structure Given where
  effects : List Effect := []
  message : Option Message := none

/-- The message an effect sends. -/
def Effect.sent : Effect → Option Message
  | .send message => some message
  | _ => none

/-- An effect that neither starts nor ends the work on a request of the other end. -/
def Effect.passive : Effect → Bool
  | .dispatch _ _ _ => false
  | .cancelIn _ _ => false
  | _ => true

/-- The messages the owner sends. -/
def Given.sent (given : Given) : List Message :=
  given.message.toList ++ given.effects.filterMap Effect.sent

/-- The request of the other end that a message is the answer to. -/
def Message.answered : Message → Option Id
  | .response id _ => some id
  | .errorResponse reply => reply.id
  | _ => none

/-- The request the other end cancels by these parameters. -/
def cancelTarget (params : Option Fields) : Option Id :=
  ((params.getD []).lookup "requestId").bind Id.ofJson

namespace Call

/-- The id of the request that the call brings in. -/
def asked : Call → Option Id
  | .ingest (.request id _ _) => some id
  | _ => none

/-- The id of the request that the call cancels, if it is in flight. -/
def cancels : Call → Option Id
  | .ingest (.notification method params) =>
    if method = "notifications/cancelled" then cancelTarget params else none
  | _ => none

/-- The id of the request that the owner answers by the call. -/
def answers : Call → Option Id
  | .respond id _ => some id
  | .respondError id _ => some id
  | _ => none

end Call

namespace Peer

/-- `new/1`: a peer before its handshake. -/
def new (role : Role) (info : Implementation) (capabilities : Json := .obj [])
    (instructions : Option String := none) : Peer where
  role := role
  localInfo := info
  localCapabilities := capabilities
  instructions := instructions

/-- One call of the owner; none where it raises. -/
def perform (peer : Peer) : Call → Option (Peer × Given)
  | .ingest message => (peer.ingest message).map fun next => (next.1, { effects := next.2 })
  | .respond id result =>
    some ((peer.respond id result).1, { message := (peer.respond id result).2 })
  | .respondError id error =>
    some ((peer.respondError id error).1, { message := (peer.respondError id error).2 })
  | .request method params caller token =>
    (peer.request method params (caller.map .serverRequest) token).map fun issued =>
      (issued.1, { message := some issued.2.2 })
  | .cancelOut id reason =>
    some ((peer.cancelOut id reason).1, { message := (peer.cancelOut id reason).2.1 })
  | .initRequest => peer.initRequest.map fun next => (next.1, { message := some next.2 })
  | .initialized =>
    peer.initialized.map fun next => (next.1, { effects := next.2.2, message := some next.2.1 })

/-! ## Requests of the other end -/

/-- The tables of the requests of the other end. -/
def inbound (peer : Peer) : Table Id String × Finset Id := (peer.pendingIn, peer.cancelledIn)

/-- What a call does to the requests of the other end. -/
inductive Inbound (peer : Peer) : Call → Peer → Given → Prop where
  | dispatched {id : Id} {method : String} {params : Option Fields} :
      ¬ (peer.role = .server ∧ method = "initialize") → peer.phase = .ready →
      peer.pendingIn.lookup id = none →
      Inbound peer (.ingest (.request id method params))
        { peer with pendingIn := peer.pendingIn.insert id method }
        { effects := [.dispatch method id params] }
  | cancelled {id : Id} {params : Option Fields} {reason : Json} :
      cancelTarget params = some id → (peer.pendingIn.lookup id).isSome = true →
      Inbound peer (.ingest (.notification "notifications/cancelled" params))
        { peer with
          pendingIn := peer.pendingIn.erase id
          cancelledIn := insert id peer.cancelledIn }
        { effects := [.cancelIn id reason] }
  | dropped {call : Call} {id : Id} : call.answers = some id → id ∈ peer.cancelledIn →
      Inbound peer call { peer with cancelledIn := peer.cancelledIn.erase id } {}
  | replied {call : Call} {id : Id} {reply : Message} : call.answers = some id →
      id ∉ peer.cancelledIn → (peer.pendingIn.lookup id).isSome = true →
      reply.answered = some id →
      Inbound peer call { peer with pendingIn := peer.pendingIn.erase id }
        { message := some reply }
  | other {call : Call} {peer' : Peer} {given : Given} : peer'.inbound = peer.inbound →
      (∀ id, call.cancels = some id → peer.pendingIn.lookup id = none) →
      (∀ id, call.answers = some id → peer.pendingIn.lookup id = none) →
      (∀ message ∈ given.sent, ∀ id, message.answered = some id → call.asked = some id) →
      (∀ effect ∈ given.effects, effect.passive = true) → Inbound peer call peer' given

section Inversion

variable {peer peer' : Peer} {call : Call} {given : Given} {effects : List Effect}
  {reply message : Message} {params : Option Fields} {method : String} {id : Id}

/-- A message that is answered at once, or not at all. -/
theorem Inbound.answer (hin : peer'.inbound = peer.inbound) (h : reply.answered = some id) :
    Inbound peer (.ingest (.request id method params)) peer' { effects := [.send reply] } := by
  refine .other hin (fun _ hc => by cases hc) (fun _ ha => by cases ha) ?_ ?_
  · intro message hmessage id' hid'
    rw [List.mem_singleton.mp hmessage, h] at hid'
    exact hid'
  · intro effect heffect
    rw [List.mem_singleton.mp heffect]
    rfl

/-- A message that leads to nothing, or to an effect that sends nothing. -/
theorem Inbound.pass (hin : peer'.inbound = peer.inbound)
    (hcancel : ∀ id, (Call.ingest message).cancels = some id → peer.pendingIn.lookup id = none)
    (heffects : ∀ effect ∈ effects, effect.passive = true ∧ effect.sent = none) :
    Inbound peer (.ingest message) peer' { effects := effects } := by
  refine .other hin hcancel (fun _ ha => by cases ha) ?_ fun effect h => (heffects effect h).1
  intro m hm
  obtain ⟨effect, heffect, hsent⟩ := List.mem_filterMap.mp hm
  rw [(heffects effect heffect).2] at hsent
  cases hsent

theorem ingestRequest_inbound (hmethod : ¬ (peer.role = .server ∧ method = "initialize")) :
    Inbound peer (.ingest (.request id method params)) (peer.ingestRequest id method params).1
      { effects := (peer.ingestRequest id method params).2 } := by
  unfold ingestRequest
  split_ifs with hphase hreceivable hpending
  · exact .answer rfl rfl
  · exact .answer rfl rfl
  · exact .answer rfl rfl
  · exact .dispatched hmethod (not_not.mp hphase) (by simpa using hpending)

theorem ingestCancelled_inbound :
    Inbound peer (.ingest (.notification "notifications/cancelled" params))
      (peer.ingestCancelled params).1 { effects := (peer.ingestCancelled params).2 } := by
  have hnone : ∀ id, (Call.ingest (.notification "notifications/cancelled" params)).cancels =
      some id → cancelTarget params = some id := fun id h => h
  unfold ingestCancelled
  dsimp only
  split
  · rename_i id hid
    split_ifs with hpending
    · exact .cancelled hid hpending
    · refine .pass rfl (fun id' hid' => ?_) fun _ h => absurd h List.not_mem_nil
      have heq : some id = some id' := hid.symm.trans (hnone id' hid')
      cases heq
      simpa using hpending
  · rename_i hid
    refine .pass rfl (fun id' hid' => ?_) fun _ h => absurd h List.not_mem_nil
    have heq : none = some id' := hid.symm.trans (hnone id' hid')
    cases heq

theorem resolveOut_inbound {outcome : Outcome}
    (h : peer.resolveOut id outcome = some (peer', effects)) :
    peer'.inbound = peer.inbound ∧
      ∀ effect ∈ effects, effect.passive = true ∧ effect.sent = none := by
  unfold resolveOut at h
  split at h
  · cases h
    exact ⟨rfl, fun _ h => absurd h List.not_mem_nil⟩
  · split_ifs at h
    · unfold clientInitializeOutcome at h
      split at h
      · split at h
        · obtain ⟨info, _, heq⟩ := Option.map_eq_some_iff.mp h
          cases heq
          exact ⟨rfl, by simp [Effect.passive, Effect.sent]⟩
        · cases h
          exact ⟨rfl, by simp [Effect.passive, Effect.sent]⟩
      · cases h
        exact ⟨rfl, by simp [Effect.passive, Effect.sent]⟩
    · cases h
      exact ⟨rfl, by simp [Effect.passive, Effect.sent]⟩

theorem ingestProgress_inbound :
    ∀ effect ∈ peer.ingestProgress params, effect.passive = true ∧ effect.sent = none := by
  unfold ingestProgress
  split
  · split
    · split <;> simp [Effect.passive, Effect.sent]
    · simp
  · simp

theorem ingest_inbound (h : peer.ingest message = some (peer', effects)) :
    Inbound peer (.ingest message) peer' { effects := effects } := by
  cases message with simp only [ingest] at h
  | request =>
    split_ifs at h with hinitialize
    · unfold ingestInitialize at h
      split_ifs at h
      · obtain ⟨info, _, heq⟩ := Option.map_eq_some_iff.mp h
        cases heq
        exact .answer rfl rfl
      · cases h
        exact .answer rfl rfl
    · cases h
      exact .answer rfl rfl
    · obtain ⟨rfl, rfl⟩ := Prod.mk.inj (Option.some.inj h)
      exact ingestRequest_inbound hinitialize
  | notification =>
    split_ifs at h with hready hcancelled hprogress hreceivable
    · cases h
      refine .pass rfl (fun id hid => ?_) (by simp [Effect.passive, Effect.sent])
      simp [Call.cancels, hready.2.2] at hid
    · obtain ⟨rfl, rfl⟩ := Prod.mk.inj (Option.some.inj h)
      subst hcancelled
      exact ingestCancelled_inbound
    · cases h
      exact .pass rfl (by simp [Call.cancels, hcancelled]) ingestProgress_inbound
    · cases h
      exact .pass rfl (by simp [Call.cancels, hcancelled])
        (by simp [Effect.passive, Effect.sent])
    · cases h
      exact .pass rfl (by simp [Call.cancels, hcancelled]) (by simp)
  | response =>
    obtain ⟨hin, heffects⟩ := resolveOut_inbound h
    exact .pass hin (fun _ hc => by cases hc) heffects
  | errorResponse =>
    split at h
    · obtain ⟨hin, heffects⟩ := resolveOut_inbound h
      exact .pass hin (fun _ hc => by cases hc) heffects
    · cases h
      exact .pass rfl (fun _ hc => by cases hc) (by simp)

theorem finishInbound_inbound (hcall : call.answers = some id) (hcancels : call.cancels = none)
    (hreply : reply.answered = some id) :
    Inbound peer call (peer.finishInbound id reply).1
      { message := (peer.finishInbound id reply).2 } := by
  unfold finishInbound
  split_ifs with hcancelled hpending
  · exact .dropped hcall hcancelled
  · exact .replied hcall hcancelled hpending hreply
  · refine .other rfl (fun _ hc => ?_) (fun id' hid' => ?_) (by simp [Given.sent]) (by simp)
    · rw [hcancels] at hc
      cases hc
    · rw [hcall] at hid'
      cases hid'
      simpa using hpending

theorem perform_inbound (h : peer.perform call = some (peer', given)) :
    Inbound peer call peer' given := by
  have hother : ∀ {call : Call} {peer' : Peer} {given : Given}, peer'.inbound = peer.inbound →
      call.cancels = none → call.answers = none →
      (∀ message ∈ given.sent, message.answered = none) →
      (∀ effect ∈ given.effects, effect.passive = true) → Inbound peer call peer' given := by
    intro call peer' given hin hcancels hanswers hsent heffects
    refine .other hin (by simp [hcancels]) (by simp [hanswers]) ?_ heffects
    intro message hmessage id hid
    rw [hsent message hmessage] at hid
    cases hid
  cases call with
  | ingest =>
    obtain ⟨next, hnext, heq⟩ := Option.map_eq_some_iff.mp h
    cases heq
    exact ingest_inbound hnext
  | respond | respondError =>
    cases h
    exact finishInbound_inbound rfl rfl rfl
  | request =>
    obtain ⟨⟨issued, n, message⟩, hissued, heq⟩ := Option.map_eq_some_iff.mp h
    cases heq
    unfold request at hissued
    split at hissued
    · cases hissued
      exact hother rfl rfl rfl (by simp [Given.sent, Message.answered]) (by simp)
    · obtain ⟨fields, _, heq⟩ := Option.map_eq_some_iff.mp hissued
      cases heq
      exact hother rfl rfl rfl (by simp [Given.sent, Message.answered]) (by simp)
  | cancelOut =>
    cases h
    unfold cancelOut
    split <;> exact hother rfl rfl rfl (by simp [Given.sent, Message.answered]) (by simp)
  | initRequest =>
    obtain ⟨next, hnext, heq⟩ := Option.map_eq_some_iff.mp h
    cases heq
    unfold initRequest at hnext
    split_ifs at hnext
    cases hnext
    exact hother rfl rfl rfl (by simp [Given.sent, Message.answered]) (by simp)
  | initialized =>
    obtain ⟨next, hnext, heq⟩ := Option.map_eq_some_iff.mp h
    cases heq
    unfold initialized at hnext
    split_ifs at hnext
    cases hnext
    exact hother rfl rfl rfl (by simp [Given.sent, Message.answered, Effect.sent])
      (by simp [Effect.passive])

end Inversion

end Peer

end NoizuMcp.Protocol
