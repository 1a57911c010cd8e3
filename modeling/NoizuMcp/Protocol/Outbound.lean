import NoizuMcp.Protocol.PeerRuns

/-!
# Requests of this end

What becomes of the requests that a peer sends. The history of a run says which ids were
issued, resolved and given up; the table of pending requests is what is left of it. An id
is issued once and resolved at most once, to the tag it was issued with, and a response to
anything else has no effect (`outbound_correlated`). The index of progress tokens is the
inverse of the tokens of the pending requests, as long as no two of them share one.
-/

set_option autoImplicit false

namespace NoizuMcp.Protocol

open Foundation Foundation.Runs

/-! ## The history of the requests -/

/-- What happened to a request of this end. -/
inductive Mark where
  | issued (id : Id) (tag : Tag)
  | resolved (id : Id) (tag : Tag)
  | cancelled (id : Id)
  deriving DecidableEq

/-- The id of a request that was issued. -/
def Mark.issuedId : Mark → Option Id
  | .issued id _ => some id
  | _ => none

/-- The id of a request that was resolved. -/
def Mark.resolvedId : Mark → Option Id
  | .resolved id _ => some id
  | _ => none

/-- The tag and the progress token of the request that a call issues under an id. -/
def Call.issues (n : Nat) : Call → Option (Tag × Option Id)
  | .request _ _ caller token => some ((caller.map .serverRequest).getD (.request n), token)
  | .initRequest => some (.init, none)
  | _ => none

/-- The id that the message of a call answers. -/
def Call.answered : Call → Option Id
  | .ingest message => message.answered
  | _ => none

/-- The effects of the handshake name no id: it is the one that was answered. -/
def Effect.mark (answered : Option Id) : Effect → Option Mark
  | .resolve tag id _ => some (.resolved id tag)
  | .initializeResult _ => answered.map (.resolved · .init)
  | .initializeFailed _ => answered.map (.resolved · .init)
  | _ => none

/-- What the message that a call gives its owner says about the requests of this end. -/
def Call.sentMarks (call : Call) : Option Message → List Mark
  | some (.request (.int n) _ _) =>
    ((call.issues n.toNat).map fun issue => Mark.issued (.int n) issue.1).toList
  | some (.notification _ _) =>
    match call with
    | .cancelOut id _ => [.cancelled id]
    | _ => []
  | _ => []

/-- What a call and what it gave its owner say about the requests of this end. -/
def marks (call : Call) (given : Given) : List Mark :=
  given.effects.filterMap (Effect.mark call.answered) ++ call.sentMarks given.message

namespace Peer

/-- The tables of the requests of this end. -/
def outbound (peer : Peer) : Nat × Table Id PendingOut × Table Id Nat :=
  (peer.nextId, peer.pendingOut, peer.progressIndex)

/-- What a call does to the requests of this end, and what is remembered of it. -/
inductive Outbound (peer : Peer) : Call → Peer → Given → List Mark → Prop where
  | issued {call : Call} {tag : Tag} {token : Option Id} {method : String} {peer' : Peer}
      {given : Given} : call.issues peer.nextId = some (tag, token) →
      peer'.outbound = (peer.issue method none tag token).1.outbound →
      Outbound peer call peer' given [.issued (.int peer.nextId) tag]
  | resolved {call : Call} {id : Id} {entry : PendingOut} {peer' : Peer} {given : Given} :
      call.answered = some id → peer.pendingOut.lookup id = some entry →
      peer'.outbound = (peer.nextId, peer.pendingOut.erase id,
        if entry.tag = .init then peer.progressIndex
        else peer.forgetToken entry.progressToken) →
      Outbound peer call peer' given [.resolved id entry.tag]
  | abandoned {id : Id} {reason : Option String} {entry : PendingOut} {peer' : Peer}
      {given : Given} : peer.pendingOut.lookup id = some entry →
      peer'.outbound = (peer.nextId, peer.pendingOut.erase id,
        peer.forgetToken entry.progressToken) →
      Outbound peer (.cancelOut id reason) peer' given [.cancelled id]
  | other {call : Call} {peer' : Peer} {given : Given} : peer'.outbound = peer.outbound →
      (call.answered ≠ none → given.effects = []) → Outbound peer call peer' given []

section Inversion

variable {peer peer' : Peer} {call : Call} {given : Given} {effects : List Effect}
  {message : Message}

theorem resolveOut_outbound {id : Id} {outcome : Outcome} (hid : message.answered = some id)
    (h : peer.resolveOut id outcome = some (peer', effects)) :
    Outbound peer (.ingest message) peer' { effects := effects }
      (marks (.ingest message) { effects := effects }) := by
  unfold resolveOut at h
  split at h
  · cases h
    exact .other rfl fun _ => rfl
  · rename_i entry hentry
    split_ifs at h with htag
    · have hresolved : ∀ {effect : Effect} {peer' : Peer},
          effect.mark (some id) = some (.resolved id entry.tag) →
          peer'.outbound = (peer.nextId, peer.pendingOut.erase id, peer.progressIndex) →
          Outbound peer (.ingest message) peer' { effects := [effect] }
            (marks (.ingest message) { effects := [effect] }) := by
        intro effect peer' hmark hout
        have hmarks :
            marks (.ingest message) { effects := [effect] } = [.resolved id entry.tag] := by
          simp [marks, Call.answered, hid, hmark, Call.sentMarks]
        rw [hmarks]
        exact .resolved hid hentry (by rw [if_pos htag]; exact hout)
      unfold clientInitializeOutcome at h
      split at h
      · split at h
        · obtain ⟨info, _, heq⟩ := Option.map_eq_some_iff.mp h
          cases heq
          exact hresolved (by rw [htag]; rfl) rfl
        · cases h
          exact hresolved (by rw [htag]; rfl) rfl
      · cases h
        exact hresolved (by rw [htag]; rfl) rfl
    · cases h
      exact .resolved hid hentry (by rw [if_neg htag]; rfl)

/-- A request or a notification of the other end. -/
theorem Outbound.unanswering (hout : peer'.outbound = peer.outbound)
    (hmessage : message.answered = none)
    (heffects : ∀ effect ∈ effects, Effect.mark none effect = none) :
    Outbound peer (.ingest message) peer' { effects := effects }
      (marks (.ingest message) { effects := effects }) := by
  have hmarks : marks (.ingest message) { effects := effects } = [] := by
    simp only [marks, Call.answered, hmessage, Call.sentMarks, List.append_nil]
    exact List.filterMap_eq_nil_iff.mpr heffects
  rw [hmarks]
  exact .other hout fun hne => absurd hmessage hne

theorem ingest_outbound (h : peer.ingest message = some (peer', effects)) :
    Outbound peer (.ingest message) peer' { effects := effects }
      (marks (.ingest message) { effects := effects }) := by
  cases message with
  | request =>
    have hout : peer'.outbound = peer.outbound := by
      simp only [ingest] at h
      split_ifs at h
      · unfold ingestInitialize at h
        split_ifs at h
        · obtain ⟨info, _, heq⟩ := Option.map_eq_some_iff.mp h
          cases heq
          rfl
        · cases h
          rfl
      · cases h
        rfl
      · have heq := congrArg Prod.fst (Option.some.inj h)
        unfold ingestRequest at heq
        split_ifs at heq <;> cases heq <;> rfl
    rcases ingest_request h with ⟨_, rfl⟩ | ⟨_, rfl⟩ | rfl <;>
      exact .unanswering hout rfl (by simp [Effect.mark])
  | notification =>
    have hout : peer'.outbound = peer.outbound := by
      simp only [ingest] at h
      split_ifs at h
      · cases h
        rfl
      · have heq := congrArg Prod.fst (Option.some.inj h)
        unfold ingestCancelled at heq
        dsimp only at heq
        split at heq
        · split_ifs at heq <;> cases heq <;> rfl
        · cases heq
          rfl
      all_goals
        cases h
        rfl
    rcases ingest_notification h with rfl | ⟨effect, rfl, hquiet⟩ | ⟨_, rfl⟩
    · exact .unanswering hout rfl (by simp)
    · refine .unanswering hout rfl fun e he => ?_
      rw [List.mem_singleton.mp he]
      cases effect <;> simp [Effect.quiet, Effect.mark] at hquiet ⊢
    · exact .unanswering hout rfl (by simp [Effect.mark])
  | response => exact resolveOut_outbound rfl h
  | errorResponse response =>
    obtain ⟨id, error⟩ := response
    cases id with
    | none =>
      cases h
      exact .unanswering rfl rfl (by simp)
    | some => exact resolveOut_outbound rfl h

theorem finishInbound_outbound (peer : Peer) (id : Id) (reply : Message) :
    (peer.finishInbound id reply).1.outbound = peer.outbound := by
  unfold finishInbound
  split_ifs <;> rfl

theorem perform_outbound (h : peer.perform call = some (peer', given)) :
    Outbound peer call peer' given (marks call given) := by
  cases call with
  | ingest =>
    obtain ⟨next, hnext, heq⟩ := Option.map_eq_some_iff.mp h
    cases heq
    exact ingest_outbound hnext
  | respond id result =>
    cases h
    have hmarks : marks (.respond id result) { message := (peer.respond id result).2 } = [] := by
      unfold respond finishInbound
      split_ifs <;> rfl
    rw [hmarks]
    exact .other (finishInbound_outbound peer id _) fun _ => rfl
  | respondError id error =>
    cases h
    have hmarks :
        marks (.respondError id error) { message := (peer.respondError id error).2 } = [] := by
      unfold respondError finishInbound
      split_ifs <;> rfl
    rw [hmarks]
    exact .other (finishInbound_outbound peer id _) fun _ => rfl
  | request =>
    obtain ⟨⟨issued, n, message⟩, hissued, heq⟩ := Option.map_eq_some_iff.mp h
    cases heq
    unfold request at hissued
    split at hissued
    · cases hissued
      exact .issued rfl rfl
    · obtain ⟨fields, _, heq⟩ := Option.map_eq_some_iff.mp hissued
      cases heq
      exact .issued rfl rfl
  | cancelOut =>
    cases h
    unfold cancelOut
    split
    · exact .other rfl fun _ => rfl
    · rename_i entry hentry
      exact .abandoned hentry rfl
  | initRequest =>
    obtain ⟨next, hnext, heq⟩ := Option.map_eq_some_iff.mp h
    cases heq
    unfold initRequest at hnext
    split_ifs at hnext
    cases hnext
    exact .issued rfl rfl
  | initialized =>
    obtain ⟨next, hnext, heq⟩ := Option.map_eq_some_iff.mp h
    cases heq
    unfold initialized at hnext
    split_ifs at hnext
    cases hnext
    exact .other rfl fun hne => absurd rfl hne

end Inversion

/-! ## Runs -/

/-- A peer with the history of its requests. -/
def remember (known : Peer × List Mark) (call : Call) : Option ((Peer × List Mark) × Given) :=
  (known.1.perform call).map fun next => ((next.1, known.2 ++ marks call next.2), next.2)

/-- The history of a peer accounts for its pending requests. -/
structure Accounts (peer : Peer) (history : List Mark) : Prop where
  fresh : ∀ id ∈ history.filterMap Mark.issuedId, ∃ n : Nat, id = .int n ∧ n < peer.nextId
  issued : (history.filterMap Mark.issuedId).Nodup
  resolved : (history.filterMap Mark.resolvedId).Nodup
  tagged : ∀ id tag, .resolved id tag ∈ history → .issued id tag ∈ history
  known : ∀ id, .cancelled id ∈ history → id ∈ history.filterMap Mark.issuedId
  pending : ∀ id entry, peer.pendingOut.lookup id = some entry →
    .issued id entry.tag ∈ history ∧ id ∉ history.filterMap Mark.resolvedId ∧
      .cancelled id ∉ history

variable {peer peer' : Peer} {call : Call} {given : Given} {history : List Mark}
  {id : Id} {tag : Tag} {entry : PendingOut} {token : Option Id} {method : String}
  {givens : List Given} {instructions : Option String} {info : Implementation} {calls : List Call}
  {capabilities : Json}

theorem mem_issuedId (h : .issued id tag ∈ history) : id ∈ history.filterMap Mark.issuedId :=
  List.mem_filterMap.mpr ⟨_, h, rfl⟩

section

variable (h : Accounts peer history)

include h

/-- The next id was not issued. -/
theorem Accounts.nextId_new : Id.int peer.nextId ∉ history.filterMap Mark.issuedId := by
  intro hmem
  obtain ⟨n, heq, hlt⟩ := h.fresh _ hmem
  have : (peer.nextId : Int) = n := Id.int.inj heq
  omega

/-- A request that leaves the table is remembered as what became of it. -/
theorem Accounts.erase (hentry : peer.pendingOut.lookup id = some entry)
    {mark : Mark} (hmark : mark = .resolved id entry.tag ∨ mark = .cancelled id)
    (hnext : peer'.nextId = peer.nextId) (hpending : peer'.pendingOut = peer.pendingOut.erase id) :
    Accounts peer' (history ++ [mark]) := by
  obtain ⟨hissued, hresolved, hcancelled⟩ := h.pending id entry hentry
  have hids : (history ++ [mark]).filterMap Mark.issuedId = history.filterMap Mark.issuedId := by
    rcases hmark with rfl | rfl <;> simp [Mark.issuedId]
  constructor
  case fresh =>
    rw [hids, hnext]
    exact h.fresh
  case issued =>
    rw [hids]
    exact h.issued
  case resolved =>
    rw [List.filterMap_append]
    rcases hmark with rfl | rfl
    · refine List.Nodup.append h.resolved (List.nodup_singleton id) ?_
      exact List.disjoint_singleton.mpr hresolved
    · exact (List.append_nil _).symm ▸ h.resolved
  case tagged =>
    intro id' tag' hmem
    rcases List.mem_append.mp hmem with hmem | hmem
    · exact List.mem_append_left _ (h.tagged id' tag' hmem)
    · rcases hmark with rfl | rfl
      · cases List.mem_singleton.mp hmem
        exact List.mem_append_left _ hissued
      · cases List.mem_singleton.mp hmem
  case known =>
    intro id' hmem
    rw [hids]
    rcases List.mem_append.mp hmem with hmem | hmem
    · exact h.known id' hmem
    · rcases hmark with rfl | rfl
      · cases List.mem_singleton.mp hmem
      · cases List.mem_singleton.mp hmem
        exact mem_issuedId hissued
  case pending =>
    intro id' entry' hentry'
    rw [hpending, Table.lookup_erase_ite] at hentry'
    split_ifs at hentry' with hne
    obtain ⟨hissued', hresolved', hcancelled'⟩ := h.pending id' entry' hentry'
    rw [List.filterMap_append]
    refine ⟨List.mem_append_left _ hissued', ?_, ?_⟩
    · rcases hmark with rfl | rfl
      · exact List.not_mem_append hresolved' (by simpa [Mark.resolvedId] using hne)
      · exact List.not_mem_append hresolved' List.not_mem_nil
    · rcases hmark with rfl | rfl
      · exact List.not_mem_append hcancelled' (by simp)
      · exact List.not_mem_append hcancelled' (by simpa using hne)

/-- A request that is issued is remembered with its tag. -/
theorem Accounts.issue (hout : peer'.outbound = (peer.issue method none tag token).1.outbound) :
    Accounts peer' (history ++ [.issued (.int peer.nextId) tag]) := by
  obtain ⟨hnext, hrest⟩ := Prod.mk.inj hout
  have hpending : peer'.pendingOut = peer.pendingOut.insert (.int peer.nextId)
    ⟨tag, method, token⟩ := (Prod.mk.inj hrest).1
  have hnew := h.nextId_new
  have hids : (history ++ [Mark.issued (.int peer.nextId) tag]).filterMap Mark.issuedId =
      history.filterMap Mark.issuedId ++ [.int peer.nextId] := by
    simp [Mark.issuedId]
  have hresolved : (history ++ [Mark.issued (.int peer.nextId) tag]).filterMap Mark.resolvedId =
      history.filterMap Mark.resolvedId := by
    simp [Mark.resolvedId]
  constructor
  case fresh =>
    intro id hid
    have hle : peer'.nextId = peer.nextId + 1 := hnext
    rw [hids] at hid
    rcases List.mem_append.mp hid with hid | hid
    · obtain ⟨n, heq, hlt⟩ := h.fresh id hid
      exact ⟨n, heq, by omega⟩
    · exact ⟨peer.nextId, List.mem_singleton.mp hid, by omega⟩
  case issued =>
    rw [hids]
    exact List.Nodup.append h.issued (List.nodup_singleton _) (List.disjoint_singleton.mpr hnew)
  case resolved =>
    rw [hresolved]
    exact h.resolved
  case tagged =>
    intro id tag' hmem
    rcases List.mem_append.mp hmem with hmem | hmem
    · exact List.mem_append_left _ (h.tagged id tag' hmem)
    · cases List.mem_singleton.mp hmem
  case known =>
    intro id hmem
    rw [hids]
    rcases List.mem_append.mp hmem with hmem | hmem
    · exact List.mem_append_left _ (h.known id hmem)
    · cases List.mem_singleton.mp hmem
  case pending =>
    intro id entry hentry
    rw [hpending, Table.lookup_insert_ite] at hentry
    rw [hresolved]
    split_ifs at hentry with heq
    · -- the id is new: nothing else is remembered of it
      cases hentry
      rw [heq]
      refine ⟨List.mem_append_right _ List.mem_cons_self, ?_, ?_⟩
      · intro hmem
        obtain ⟨mark, hmark, hid⟩ := List.mem_filterMap.mp hmem
        cases mark with
        | resolved _ tag' =>
          cases hid
          exact hnew (mem_issuedId (h.tagged _ tag' hmark))
        | issued | cancelled => cases hid
      · exact List.not_mem_append (fun hmem => hnew (h.known _ hmem)) (by simp)
    · obtain ⟨hissued', hresolved', hcancelled'⟩ := h.pending id entry hentry
      exact ⟨List.mem_append_left _ hissued', hresolved',
        List.not_mem_append hcancelled' (by simp)⟩

theorem accounts_step (hcall : peer.perform call = some (peer', given)) :
    Accounts peer' (history ++ marks call given) := by
  have hmarks := perform_outbound hcall
  generalize marks call given = new at hmarks
  cases hmarks with
  | issued _ hout => exact h.issue hout
  | resolved _ hentry hout =>
    obtain ⟨hnext, hrest⟩ := Prod.mk.inj hout
    exact h.erase hentry (.inl rfl) hnext (Prod.mk.inj hrest).1
  | abandoned hentry hout =>
    obtain ⟨hnext, hrest⟩ := Prod.mk.inj hout
    exact h.erase hentry (.inr rfl) hnext (Prod.mk.inj hrest).1
  | other hout =>
    obtain ⟨hnext, hrest⟩ := Prod.mk.inj hout
    rw [List.append_nil]
    exact ⟨hnext ▸ h.fresh, h.issued, h.resolved, h.tagged, h.known,
      (Prod.mk.inj hrest).1 ▸ h.pending⟩

end

theorem accounts_run {role : Role}
    (h : run remember (new role info capabilities instructions, []) calls =
      some ((peer, history), givens)) : Accounts peer history := by
  refine run_invariant (fun known => Accounts known.1 known.2) ?_ ?_ h
  · intro known call next given hknown hstep
    obtain ⟨next', hnext', heq⟩ := Option.map_eq_some_iff.mp hstep
    cases heq
    exact accounts_step hknown hnext'
  · exact ⟨by simp, by simp, by simp, by simp, by simp, by simp [new]⟩

/-! ## Progress tokens -/

/-- No two pending requests have the same progress token. -/
def Distinct (peer : Peer) : Prop :=
  ∀ id id' entry entry', peer.pendingOut.lookup id = some entry →
    peer.pendingOut.lookup id' = some entry' → entry.progressToken = entry'.progressToken →
    entry.progressToken ≠ none → id = id'

/-- The index sends the token of a pending request to its id, and nothing else. -/
def Exact (peer : Peer) : Prop :=
  ∀ token n, peer.progressIndex.lookup token = some n ↔
    ∃ entry, peer.pendingOut.lookup (.int n) = some entry ∧ entry.progressToken = some token

/-- Pending ids have been issued, and the initialize request has no token. -/
structure Issued (peer : Peer) : Prop where
  fresh : ∀ id entry, peer.pendingOut.lookup id = some entry →
    ∃ n : Nat, id = .int n ∧ n < peer.nextId
  plain : ∀ id entry, peer.pendingOut.lookup id = some entry → entry.tag = .init →
    entry.progressToken = none

theorem Issued.nextId_free (h : peer.Issued) :
    peer.pendingOut.lookup (.int peer.nextId) = none := by
  cases hentry : peer.pendingOut.lookup (.int peer.nextId) with
  | none => rfl
  | some entry =>
    obtain ⟨n, heq, hlt⟩ := h.fresh _ entry hentry
    have : (peer.nextId : Int) = n := Id.int.inj heq
    omega

theorem issues_plain {n : Nat} (h : call.issues n = some (.init, token)) : token = none := by
  cases call with
  | request _ _ caller => cases caller <;> simp [Call.issues] at h
  | initRequest =>
    cases h
    rfl
  | _ => cases h

theorem issued_step (h : peer.Issued) (hcall : peer.perform call = some (peer', given)) :
    peer'.Issued := by
  have herase : ∀ {id : Id} {index : Table Id Nat},
      peer'.outbound = (peer.nextId, peer.pendingOut.erase id, index) → peer'.Issued := by
    intro id index hout
    obtain ⟨hnext, hrest⟩ := Prod.mk.inj hout
    have hlookup : ∀ id' entry, peer'.pendingOut.lookup id' = some entry →
        peer.pendingOut.lookup id' = some entry := by
      intro id' entry hentry
      rw [(Prod.mk.inj hrest).1, Table.lookup_erase_ite] at hentry
      split_ifs at hentry
      exact hentry
    exact ⟨fun id' entry hentry => hnext ▸ h.fresh id' entry (hlookup id' entry hentry),
      fun id' entry hentry => h.plain id' entry (hlookup id' entry hentry)⟩
  have hmarks := perform_outbound hcall
  generalize marks call given = new at hmarks
  cases hmarks with
  | @issued _ tag token method _ _ hissues hout =>
    obtain ⟨hnext, hrest⟩ := Prod.mk.inj hout
    have hle : peer'.nextId = peer.nextId + 1 := hnext
    have hpending : peer'.pendingOut = peer.pendingOut.insert (.int peer.nextId)
      ⟨tag, method, token⟩ := (Prod.mk.inj hrest).1
    refine ⟨fun id entry hentry => ?_, fun id entry hentry htag => ?_⟩
    all_goals
      rw [hpending, Table.lookup_insert_ite] at hentry
      split_ifs at hentry with heq
    · exact ⟨peer.nextId, heq, by omega⟩
    · obtain ⟨n, hid, hlt⟩ := h.fresh id entry hentry
      exact ⟨n, hid, by omega⟩
    · cases hentry
      cases htag
      exact issues_plain hissues
    · exact h.plain id entry hentry htag
  | resolved _ _ hout | abandoned _ hout => exact herase hout
  | other hout =>
    obtain ⟨hnext, hrest⟩ := Prod.mk.inj hout
    have hpending := (Prod.mk.inj hrest).1
    exact ⟨hnext ▸ hpending ▸ h.fresh, hpending ▸ h.plain⟩

/-- A request that leaves the table takes its token out of the index. -/
theorem exact_erase (hissued : peer.Issued) (hdistinct : peer.Distinct) (h : peer.Exact)
    (hentry : peer.pendingOut.lookup id = some entry)
    (hpending : peer'.pendingOut = peer.pendingOut.erase id)
    (hindex : peer'.progressIndex = peer.forgetToken entry.progressToken) : peer'.Exact := by
  obtain ⟨k, rfl, _⟩ := hissued.fresh id entry hentry
  intro token n
  have hrows : ∀ row, peer'.pendingOut.lookup (.int n) = some row ↔
      n ≠ k ∧ peer.pendingOut.lookup (.int n) = some row := by
    intro row
    rw [hpending, Table.lookup_erase_ite]
    by_cases hnk : n = k
    · simp [hnk]
    · have hne : ¬ Id.int n = Id.int k := fun heq => hnk (by exact_mod_cast Id.int.inj heq)
      simp [hne, hnk]
  simp only [hrows]
  by_cases hmine : entry.progressToken = some token
  · -- no other pending request has this token
    have hnone : peer'.progressIndex.lookup token = none := by
      rw [hindex, hmine]
      exact AList.lookup_erase _ _
    rw [hnone]
    refine ⟨(fun heq => by cases heq), ?_⟩
    rintro ⟨row, ⟨hne, hrow⟩, htoken⟩
    have heq : Id.int n = Id.int k :=
      hdistinct _ _ row entry hrow hentry (htoken.trans hmine.symm) (by simp [htoken])
    exact absurd (by exact_mod_cast Id.int.inj heq) hne
  · have hsame : peer'.progressIndex.lookup token = peer.progressIndex.lookup token := by
      rw [hindex]
      cases htoken : entry.progressToken with
      | none => rfl
      | some mine =>
        have hne : token ≠ mine := fun heq => hmine (by rw [htoken, heq])
        exact AList.lookup_erase_ne hne
    rw [hsame, h token n]
    refine exists_congr fun row => ⟨fun ⟨hrow, htoken⟩ => ⟨⟨?_, hrow⟩, htoken⟩,
      fun hboth => ⟨hboth.1.2, hboth.2⟩⟩
    rintro rfl
    cases hentry.symm.trans hrow
    exact hmine htoken

/-- A request that is issued puts its token into the index, in nobody's place. -/
theorem exact_issue (hissued : peer.Issued) (h : peer.Exact)
    (hout : peer'.outbound = (peer.issue method none tag token).1.outbound)
    (hdistinct : peer'.Distinct) : peer'.Exact := by
  obtain ⟨_, hrest⟩ := Prod.mk.inj hout
  obtain ⟨hpending, hindex⟩ := Prod.mk.inj hrest
  have hpending : peer'.pendingOut = peer.pendingOut.insert (.int peer.nextId)
    ⟨tag, method, token⟩ := hpending
  have hfree := hissued.nextId_free
  have hnew : peer'.pendingOut.lookup (.int peer.nextId) = some ⟨tag, method, token⟩ := by
    rw [hpending, AList.lookup_insert]
  have hold : ∀ {n : Nat}, n ≠ peer.nextId →
      peer'.pendingOut.lookup (.int n) = peer.pendingOut.lookup (.int n) := by
    intro n hne
    rw [hpending]
    exact AList.lookup_insert_ne fun heq => hne (by exact_mod_cast Id.int.inj heq)
  intro wanted n
  by_cases hmine : token = some wanted
  · have hlookup : peer'.progressIndex.lookup wanted = some peer.nextId := by
      subst hmine
      exact (congrArg (AList.lookup wanted) hindex).trans (AList.lookup_insert _)
    rw [hlookup]
    constructor
    · rintro ⟨rfl⟩
      exact ⟨_, hnew, hmine⟩
    · rintro ⟨row, hrow, htoken⟩
      have heq : Id.int n = Id.int peer.nextId :=
        hdistinct _ _ row _ hrow hnew (htoken.trans hmine.symm) (by simp [htoken])
      rw [show n = peer.nextId by exact_mod_cast Id.int.inj heq]
  · have hsame : peer'.progressIndex.lookup wanted = peer.progressIndex.lookup wanted := by
      cases token with
      | none => exact congrArg (AList.lookup wanted) hindex
      | some mine =>
        have hne : wanted ≠ mine := fun heq => hmine (by rw [heq])
        exact (congrArg (AList.lookup wanted) hindex).trans (AList.lookup_insert_ne hne)
    rw [hsame, h wanted n]
    by_cases hn : n = peer.nextId
    · subst hn
      rw [hfree, hnew]
      simp [hmine]
    · rw [hold hn]

theorem exact_step (hissued : peer.Issued) (hdistinct : peer.Distinct) (h : peer.Exact)
    (hcall : peer.perform call = some (peer', given)) (hdistinct' : peer'.Distinct) :
    peer'.Exact := by
  have hmarks := perform_outbound hcall
  generalize marks call given = new at hmarks
  cases hmarks with
  | issued _ hout => exact exact_issue hissued h hout hdistinct'
  | @resolved _ id entry _ _ _ hentry hout =>
    obtain ⟨_, hrest⟩ := Prod.mk.inj hout
    obtain ⟨hpending, hindex⟩ := Prod.mk.inj hrest
    refine exact_erase hissued hdistinct h hentry hpending ?_
    rw [hindex]
    split_ifs with htag
    · rw [hissued.plain id entry hentry htag]
      rfl
    · rfl
  | abandoned hentry hout =>
    obtain ⟨_, hrest⟩ := Prod.mk.inj hout
    obtain ⟨hpending, hindex⟩ := Prod.mk.inj hrest
    exact exact_erase hissued hdistinct h hentry hpending hindex
  | other hout =>
    obtain ⟨_, hrest⟩ := Prod.mk.inj hout
    obtain ⟨hpending, hindex⟩ := Prod.mk.inj hrest
    intro token n
    rw [hpending, hindex]
    exact h token n

/-- A run in all of whose states the tokens of pending requests are distinct. -/
theorem exact_run {role : Role} (hdistinct : ∀ first rest known givens, calls = first ++ rest →
      run remember (new role info capabilities instructions, []) first = some (known, givens) →
      known.1.Distinct) (h : run remember (new role info capabilities instructions, []) calls =
      some ((peer, history), givens)) : peer.Exact := by
  have hstart : (new role info capabilities instructions).Distinct :=
    fun _ _ _ _ hentry => by cases hentry
  have hall := (forall_states_iff (fun known : Peer × List Mark => known.1.Distinct)
    (fun _ _ _ => Iff.rfl) hstart).mp hdistinct
  have hinvariant : peer.Issued ∧ peer.Distinct ∧ peer.Exact := by
    refine run_invariant_of_all
      (fun known : Peer × List Mark => known.1.Issued ∧ known.1.Distinct ∧ known.1.Exact)
      ?_ ?_ hall h
    · rintro known call next given ⟨hissued, hknown, hexact⟩ hnext hstep
      have hdistinct' := hnext (next, given) hstep
      obtain ⟨next', hperform, heq⟩ := Option.map_eq_some_iff.mp hstep
      cases heq
      exact ⟨issued_step hissued hperform, hdistinct',
        exact_step hissued hknown hexact hperform hdistinct'⟩
    · refine ⟨⟨by simp [new], by simp [new]⟩, hstart, ?_⟩
      intro token n
      simp [new]
  exact hinvariant.2.2

/-- In every run of a peer no id is issued twice and none is resolved twice, a request is
resolved to the tag it was issued with, and a response under an id that was not issued, or
was resolved or given up already, has no effect. If in every state of the run the tokens
of the pending requests are distinct, the progress index is the map from these tokens to
the ids of the requests. -/
theorem outbound_correlated (role : Role) (info : Implementation) (capabilities : Json)
    (instructions : Option String) (calls : List Call) (peer : Peer) (history : List Mark)
    (givens : List Given)
    (h : run remember (new role info capabilities instructions, []) calls =
      some ((peer, history), givens)) :
    (history.filterMap Mark.issuedId).Nodup ∧
    (history.filterMap Mark.resolvedId).Nodup ∧
    (∀ id tag, .resolved id tag ∈ history → .issued id tag ∈ history) ∧
    (∀ message id next given, Message.answered message = some id →
      peer.perform (.ingest message) = some (next, given) →
      id ∉ history.filterMap Mark.issuedId ∨ id ∈ history.filterMap Mark.resolvedId ∨
        .cancelled id ∈ history → given.effects = []) ∧
    ((∀ first rest known givens, calls = first ++ rest →
        run remember (new role info capabilities instructions, []) first = some (known, givens) →
        known.1.Distinct) →
      ∀ token n, peer.progressIndex.lookup token = some n ↔
        ∃ entry, peer.pendingOut.lookup (.int n) = some entry ∧
          entry.progressToken = some token) := by
  have haccounts := accounts_run h
  refine ⟨haccounts.issued, haccounts.resolved, haccounts.tagged, ?_, fun hd => exact_run hd h⟩
  intro message id next given hid hperform hover
  have hmarks := perform_outbound hperform
  generalize marks (.ingest message) given = new at hmarks
  cases hmarks with
  | issued hissues => cases hissues
  | resolved hid' hentry =>
    cases hid.symm.trans hid'
    obtain ⟨hissued, hresolved, hcancelled⟩ := haccounts.pending _ _ hentry
    rcases hover with hover | hover | hover
    · exact absurd (mem_issuedId hissued) hover
    · exact absurd hover hresolved
    · exact absurd hover hcancelled
  | other _ heffects => exact heffects (by rw [Call.answered, hid]; exact Option.some_ne_none id)

end Peer

namespace Peer.Sample

def client : Peer := new .client { name := .str "sample", version := .str "1.0.0" } (.obj []) none

/-- A request with a token is answered twice; another one is given up and answered. -/
def exchange : List Call :=
  [.initRequest,
    .ingest (.response (.int 1) [("protocolVersion", .str "2025-11-25")]),
    .initialized,
    .request "tools/call" none none (some (.str "pt-2")),
    .request "tools/list" none (some 4) none,
    .ingest (.response (.int 2) []),
    .ingest (.response (.int 2) []),
    .cancelOut (.int 3) none,
    .ingest (.response (.int 3) [])]

end Peer.Sample

namespace Peer

open Sample

theorem outbound_correlated_sample : ∃ peer history givens,
    run remember (client, []) exchange = some ((peer, history), givens) ∧
    history = [.issued (.int 1) .init, .resolved (.int 1) .init,
      .issued (.int 2) (.request 2), .issued (.int 3) (.serverRequest 4),
      .resolved (.int 2) (.request 2), .cancelled (.int 3)] ∧
    (history.filterMap Mark.resolvedId).Nodup := by
  obtain ⟨⟨⟨peer, history⟩, givens⟩, hrun⟩ := Option.isSome_iff_exists.mp
    (show (run remember (client, []) exchange).isSome = true by decide +kernel)
  have hhistory : ((run remember (client, []) exchange).map fun last => last.1.2) =
      some [.issued (.int 1) .init, .resolved (.int 1) .init,
        .issued (.int 2) (.request 2), .issued (.int 3) (.serverRequest 4),
        .resolved (.int 2) (.request 2), .cancelled (.int 3)] := by decide +kernel
  rw [hrun] at hhistory
  exact ⟨peer, history, givens, hrun, Option.some.inj hhistory,
    (outbound_correlated .client client.localInfo (.obj []) none exchange peer history givens
      hrun).2.1⟩

end Peer

end NoizuMcp.Protocol
