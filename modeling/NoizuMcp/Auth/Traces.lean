import NoizuMcp.Auth.Deployment

/-!
# What one request does

The sequential specification of the four endpoints. `Permit` says, for each
operation, what the trace of the request looks like when the operation is
issued: a first refresh token is put after the code was taken, a rotation after
the presented token was read, a code is stored after the login or the approval
that stands for it, a family is revoked for a cause, every stored credential was
drawn by the request itself, and each of these happens at most once. `Settled`
says what the trace of an answered refresh request looks like.

Answers are arbitrary in all of this, so the specification holds of a request
whatever other requests do meanwhile.
-/

set_option autoImplicit false

namespace NoizuMcp.Auth

open Foundation Protocol

/-! ## Vocabulary of traces -/

/-- The operation is a put or a rotation of refresh tokens. -/
def Op.storesRefresh : Op → Bool
  | .store (.putRefreshToken _) => true
  | .store (.rotateRefreshToken _ _) => true
  | _ => false

/-- The operation redeems an authorization code. -/
def Op.takesCode : Op → Bool
  | .store (.takeAuthorizationCode _) => true
  | _ => false

/-- The operation stores an authorization code. -/
def Op.storesCode : Op → Bool
  | .store (.putAuthorizationCode _) => true
  | _ => false

/-- The operation parks a login state. -/
def Op.parksLogin : Op → Bool
  | .store (.putLoginState _ _ _) => true
  | _ => false

/-- The operation consumes a login state. -/
def Op.takesLogin : Op → Bool
  | .store (.takeLoginState _) => true
  | _ => false

/-- The operation presents a refresh token to the store. -/
def Op.presentsRefresh : Op → Bool
  | .store (.getRefreshToken _) => true
  | .store (.rotateRefreshToken _ _) => true
  | _ => false

/-- The operation is none of the kinds above. -/
def Op.minor (op : Op) : Bool :=
  !(op.storesRefresh || op.takesCode || op.storesCode || op.parksLogin || op.takesLogin ||
    op.presentsRefresh)

/-- No operation of the trace is of kind `B`. -/
def Silent (B : Op → Bool) (tr : List ServerEvent) : Prop := ∀ e ∈ tr, B e.op = false

@[simp] theorem silent_nil (B : Op → Bool) : Silent B [] := by simp [Silent]

variable {tr tr' : List ServerEvent} {B : Op → Bool} {request : Request} {token : String}

@[simp] theorem silent_append : Silent B (tr ++ tr') ↔ Silent B tr ∧ Silent B tr' := by
  simp [Silent, or_imp, forall_and]

@[simp] theorem silent_cons {e : ServerEvent} :
    Silent B (e :: tr) ↔ B e.op = false ∧ Silent B tr := by simp [Silent]

/-- The trace grew by minor operations only. -/
def Quietly (tr tr' : List ServerEvent) : Prop :=
  ∃ ext, tr' = tr ++ ext ∧ ∀ e ∈ ext, e.op.minor = true

namespace Quietly

variable {tr tr' tr'' : List ServerEvent}

theorem refl (tr : List ServerEvent) : Quietly tr tr := ⟨[], by simp, by simp⟩

theorem snoc (h : Quietly tr tr') {e : ServerEvent} (he : e.op.minor = true) :
    Quietly tr (tr' ++ [e]) := by
  obtain ⟨ext, rfl, hext⟩ := h
  refine ⟨ext ++ [e], List.append_assoc _ _ _, fun e' he' => ?_⟩
  rcases List.mem_append.mp he' with h' | h'
  · exact hext e' h'
  · obtain rfl : e' = e := by simpa using h'
    exact he

theorem trans (h : Quietly tr tr') (h' : Quietly tr' tr'') : Quietly tr tr'' := by
  obtain ⟨ext, rfl, hext⟩ := h
  obtain ⟨ext', rfl, hext'⟩ := h'
  refine ⟨ext ++ ext', List.append_assoc _ _ _, fun e he => ?_⟩
  exact (List.mem_append.mp he).elim (hext e) (hext' e)

theorem sub (h : Quietly tr tr') : tr ⊆ tr' := by
  obtain ⟨ext, rfl, -⟩ := h
  exact List.subset_append_left _ _

/-- A kind that no minor operation is of stays absent. -/
theorem silent (h : Quietly tr tr')
    (hB : ∀ op : Op, op.minor = true → B op = false) (hs : Silent B tr) : Silent B tr' := by
  obtain ⟨ext, rfl, hext⟩ := h
  exact silent_append.mpr ⟨hs, fun e he => hB _ (hext e he)⟩

end Quietly

theorem minor_kinds {op : Op} (h : op.minor = true) :
    op.storesRefresh = false ∧ op.takesCode = false ∧ op.storesCode = false ∧
      op.parksLogin = false ∧ op.takesLogin = false ∧ op.presentsRefresh = false := by
  simpa [Op.minor, and_assoc] using h

/-- The value was drawn as a token. -/
def DrewToken (tr : List ServerEvent) (value : String) : Prop :=
  (⟨.generateToken, value⟩ : ServerEvent) ∈ tr

/-- The value was drawn as an id. -/
def DrewId (tr : List ServerEvent) (value : String) : Prop :=
  (⟨.generateId, value⟩ : ServerEvent) ∈ tr

/-- The code was redeemed, and this is the record. -/
def TookCode (tr : List ServerEvent) (code : String) (record : AuthorizationCode) : Prop :=
  (⟨.store (.takeAuthorizationCode code), .ok record⟩ : ServerEvent) ∈ tr

/-- The refresh token was read as usable, and this is the record. -/
def GotRefresh (tr : List ServerEvent) (token : String) (record : RefreshToken) : Prop :=
  (⟨.store (.getRefreshToken token), .ok record⟩ : ServerEvent) ∈ tr

/-- The refresh token was read as not usable. -/
def MissedRefresh (tr : List ServerEvent) (token : String) : Prop :=
  ∃ e, (⟨.store (.getRefreshToken token), .error e⟩ : ServerEvent) ∈ tr

/-- The rotation succeeded, and this is the old record. -/
def RotatedTo (tr : List ServerEvent) (token : String) (successor old : RefreshToken) : Prop :=
  (⟨.store (.rotateRefreshToken token successor), .ok old⟩ : ServerEvent) ∈ tr

/-- The client record was resolved. -/
def Resolved (tr : List ServerEvent) (client : Client) : Prop :=
  (∃ id, (⟨.store (.getClient id), .ok client⟩ : ServerEvent) ∈ tr) ∨
    ∃ id stored fetched, (⟨.cimdResolve id stored, .ok (client, fetched)⟩ : ServerEvent) ∈ tr

theorem Resolved.mono {client : Client} (h : Resolved tr client) (hsub : tr ⊆ tr') :
    Resolved tr' client := by
  rcases h with ⟨id, h⟩ | ⟨id, stored, fetched, h⟩
  · exact .inl ⟨id, hsub h⟩
  · exact .inr ⟨id, stored, fetched, hsub h⟩

/-! ## The condition of each operation -/

/-- A freshly minted refresh token: drawn by this request, not used, and the
first this request stores. -/
structure FreshRefresh (tr : List ServerEvent) (record : RefreshToken) : Prop where
  first : Silent Op.storesRefresh tr
  token : ∃ value, record.token = some value ∧ DrewToken tr value
  unused : record.rotatedAt = none ∧ record.rotatedTo = none ∧ record.revokedAt = none

/-- The first token of a family: minted from the code this request redeemed. -/
structure MintsFirst (tr : List ServerEvent) (record : RefreshToken) : Prop
    extends FreshRefresh tr record where
  id : ∃ value, record.id = some value ∧ DrewId tr value
  code : ∃ code source, TookCode tr code source ∧
    record.clientId = source.clientId ∧ record.subject = source.subject ∧
    record.scope = source.scope ∧ record.resource = source.resource ∧
    (source.refreshFamilyId = none ∨ source.refreshFamilyId = some record.familyId)

/-- The new record narrows the old one. -/
structure Narrows (new old : RefreshToken) : Prop where
  scope : new.scope ⊆ old.scope
  subject : new.subject = old.subject
  clientId : new.clientId = old.clientId
  resource : new.resource = old.resource

/-- A rotation: of the presented token after it was read as usable, or the probe
after it was not. -/
structure Rotates (request : Request) (tr : List ServerEvent) (presented : String)
    (record : RefreshToken) : Prop extends FreshRefresh tr record where
  endpoint : ∃ authorization params, request.endpoint = .token authorization params
  named : request.endpoint.params.raw "refresh_token" = some presented
  source : (∃ existing, GotRefresh tr presented existing ∧ Narrows record existing ∧
      ∃ value, record.id = some value ∧ DrewId tr value) ∨
    (MissedRefresh tr presented ∧ record.id = none)

theorem Rotates.carried {presented : String} {record : RefreshToken}
    (h : Rotates request tr presented record) : presented ∈ request.endpoint.params.strings :=
  Params.raw_mem_strings h.named

/-- The scope comes from the redeemed code, or from the token just rotated. -/
def Backed (tr : List ServerEvent) (scope : List String) : Prop :=
  (∃ code source, TookCode tr code source ∧ scope = source.scope) ∨
    ∃ presented record old existing, RotatedTo tr presented record old ∧
      GotRefresh tr presented existing ∧ scope = record.scope ∧ scope ⊆ existing.scope

theorem Backed.mono {scope : List String} (h : Backed tr scope) (hsub : tr ⊆ tr') :
    Backed tr' scope := by
  rcases h with ⟨code, source, htook, hscope⟩ | ⟨presented, record, old, existing, hrot, hgot, hs⟩
  · exact .inl ⟨code, source, hsub htook, hscope⟩
  · exact .inr ⟨presented, record, old, existing, hsub hrot, hsub hgot, hs⟩

/-- What a family is revoked for: a replayed code, a code whose bindings failed, a
rotated token presented again, or a token its client asked to revoke. -/
inductive Blamed (request : Request) (tr : List ServerEvent) (family : String) : Prop where
  | replayed {code : String} {record : AuthorizationCode}
      (reported : (⟨.store (.takeAuthorizationCode code), .error (.replayed record)⟩ :
        ServerEvent) ∈ tr) (family : record.refreshFamilyId = some family)
  | unbound {code : String} {record : AuthorizationCode} (took : TookCode tr code record)
      (family : record.refreshFamilyId = some family)
  | reused {token : String} {new old : RefreshToken}
      (reported : (⟨.store (.rotateRefreshToken token new), .error (.replayed old)⟩ :
        ServerEvent) ∈ tr) (family : old.familyId = family)
  | revoked {token : String} {record : RefreshToken} (got : GotRefresh tr token record)
      (family : record.familyId = family)
      (endpoint : ∃ authorization params, request.endpoint = .revoke authorization params)

/-- What a stored code stands on. A `GET` stands on the host's login and, for a
client that requires consent, on a consent on record; a `POST` stands on an
approval with the CSRF value of the login state. -/
inductive Stands (config : Config) (request : Request) (tr : List ServerEvent)
    (state : String) (record : AuthorizationCode) (client : Client) : Prop where
  | login (params : Params) (endpoint : request.endpoint = .authorize params)
      (subject : (⟨.upstreamAuthenticate state, .ok record.subject⟩ : ServerEvent) ∈ tr)
      (consent : client.requiresConsent config = true → ∃ granted : Consent,
        (⟨.store (.getConsent record.subject record.clientId), .ok granted⟩ : ServerEvent) ∈ tr ∧
          record.scope ⊆ granted.scope)
  | approval (params : Params) (payload : Payload) (endpoint : request.endpoint = .consent params)
      (decision : params.raw "decision" = some "approve")
      (named : params.raw "login_state" = some state)
      (loaded : (⟨.store (.getLoginState state), .ok payload⟩ : ServerEvent) ∈ tr)
      (csrf : ConsentGate.validCsrf config.host payload (params.raw "csrf_token") = true)
      (subject : payload.str "subject" = some record.subject)

/-- A stored code: drawn by this request with its family, the first it stores,
for the login state it has just consumed. -/
structure IssuesCode (config : Config) (request : Request) (tr : List ServerEvent)
    (record : AuthorizationCode) : Prop where
  first : Silent Op.storesCode tr
  code : ∃ value, record.code = some value ∧ DrewToken tr value
  family : ∃ value, record.refreshFamilyId = some value ∧ DrewId tr value
  unused : record.usedAt = none
  stands : ∃ state client, Resolved tr client ∧ record.clientId = client.clientId ∧
    (∃ answer, (⟨.store (.takeLoginState state), answer⟩ : ServerEvent) ∈ tr) ∧
    Stands config request tr state record client

/-- The login state a request works on: the one it names, or the one it has parked. -/
def Names (request : Request) (tr : List ServerEvent) (state : String) : Prop :=
  request.endpoint.params.raw "login_state" = some state ∨
    ∃ payload ttl answer,
      (⟨.store (.putLoginState state payload ttl), answer⟩ : ServerEvent) ∈ tr

theorem Names.mono {state : String} (h : Names request tr state) (hsub : tr ⊆ tr') :
    Names request tr' state := by
  rcases h with hraw | ⟨payload, ttl, answer, hput⟩
  · exact .inl hraw
  · exact .inr ⟨payload, ttl, answer, hsub hput⟩

/-- A parked request: drawn handle, drawn CSRF value, no subject yet. -/
structure Parks (tr : List ServerEvent) (state : String) (payload : Payload) : Prop where
  first : Silent Op.parksLogin tr
  handle : DrewToken tr state
  content : ∃ request csrfToken, payload = AuthRequest.toPayload request csrfToken ∧
    DrewToken tr csrfToken

/-- A recorded consent: approved for the subject of the login state. -/
def RecordsConsent (config : Config) (request : Request) (tr : List ServerEvent)
    (consent : Consent) : Prop :=
  ∃ params state payload, request.endpoint = .consent params ∧
    params.raw "decision" = some "approve" ∧ params.raw "login_state" = some state ∧
    (⟨.store (.getLoginState state), .ok payload⟩ : ServerEvent) ∈ tr ∧
    ConsentGate.validCsrf config.host payload (params.raw "csrf_token") = true ∧
    payload.str "subject" = some consent.subject

/-- The condition under which a request issues a store call. Calls that no
endpoint makes have none. -/
def PermitCall (config : Config) (request : Request) (tr : List ServerEvent) : StoreCall → Prop
  | .getClient _ | .putClient _ | .getConsent _ _ | .putAccessToken _ | .revokeAccessToken _ => True
  | .getRefreshToken token => token ∈ request.endpoint.params.strings ∧ Quietly [] tr
  | .revokeRefreshFamily familyId => Blamed request tr familyId
  | .putLoginState state payload _ => Parks tr state payload
  | .getLoginState state => request.endpoint.params.raw "login_state" = some state
  | .updateLoginState state changes => Names request tr state ∧
      (∃ params, request.endpoint = .authorize params) ∧ ∃ subject,
        (⟨.upstreamAuthenticate state, .ok subject⟩ : ServerEvent) ∈ tr ∧
          changes = (∅ : Payload).insert "subject" (.str subject)
  | .takeLoginState state => Names request tr state ∧ Silent Op.takesLogin tr
  | .putAuthorizationCode code => IssuesCode config request tr code
  | .takeAuthorizationCode code => code ∈ request.endpoint.params.strings ∧ Quietly [] tr ∧
      request.endpoint.params.raw "grant_type" = some "authorization_code"
  | .putRefreshToken token => MintsFirst tr token
  | .rotateRefreshToken oldToken newToken => Rotates request tr oldToken newToken
  | .putConsent consent => RecordsConsent config request tr consent
  | _ => False

/-- The condition under which a request issues an operation. -/
def Permit (config : Config) (request : Request) (tr : List ServerEvent) : Op → Prop
  | .store call => PermitCall config request tr call
  | .sign claims => ∃ scope, claims.scope = joinScope scope ∧ Backed tr scope
  | _ => True

/-- What an answered token request leaves behind: every token it read as not
usable was probed by a rotation, and every replay it was told of was followed by
the revocation of the family. -/
structure Settled (tr : List ServerEvent) : Prop where
  probed : ∀ token, MissedRefresh tr token → ∃ record answer,
    (⟨.store (.rotateRefreshToken token record), answer⟩ : ServerEvent) ∈ tr
  punished : ∀ token record old,
    (⟨.store (.rotateRefreshToken token record), .error (.replayed old)⟩ : ServerEvent) ∈ tr →
      ∃ done, (⟨.store (.revokeRefreshFamily old.familyId), done⟩ : ServerEvent) ∈ tr

namespace Settled

variable {tr tr' ext : List ServerEvent}

theorem of_silent (h : Silent Op.presentsRefresh tr) : Settled tr := by
  refine ⟨?_, fun token record old he => ?_⟩
  · rintro token ⟨e, he⟩
    simpa [Op.presentsRefresh] using h _ he
  · simpa [Op.presentsRefresh] using h _ he

/-- Steps that present no refresh token leave a settled trace settled. -/
theorem append (h : Settled tr) (hext : Silent Op.presentsRefresh ext) : Settled (tr ++ ext) := by
  have hext' := of_silent hext
  refine ⟨?_, fun token record old he => ?_⟩
  · rintro token ⟨e, he⟩
    rcases List.mem_append.mp he with he | he
    · obtain ⟨record, answer, hmem⟩ := h.probed token ⟨e, he⟩
      exact ⟨record, answer, List.mem_append_left _ hmem⟩
    · obtain ⟨record, answer, hmem⟩ := hext'.probed token ⟨e, he⟩
      exact ⟨record, answer, List.mem_append_right _ hmem⟩
  · rcases List.mem_append.mp he with he | he
    · obtain ⟨done, hmem⟩ := h.punished token record old he
      exact ⟨done, List.mem_append_left _ hmem⟩
    · obtain ⟨done, hmem⟩ := hext'.punished token record old he
      exact ⟨done, List.mem_append_right _ hmem⟩

theorem quietly (h : Settled tr) (hq : Quietly tr tr') : Settled tr' := by
  obtain ⟨ext, rfl, hext⟩ := hq
  exact h.append fun e he => (minor_kinds (hext e he)).2.2.2.2.2

variable {presented : String} {record old : RefreshToken}

section

variable (hfirst : Silent Op.storesRefresh tr)
  (honly : ∀ token, MissedRefresh tr token → token = presented)

include hfirst honly

/-- A rotation settles the one token that was missed, whatever it answers except
a replay. -/
theorem rotation {answer : Except (StoreError RefreshToken) RefreshToken}
    (hanswer : ∀ old, answer ≠ .error (.replayed old)) :
    Settled (tr ++ [⟨.store (.rotateRefreshToken presented record), answer⟩]) := by
  refine ⟨?_, fun token record' old he => ?_⟩
  · rintro token ⟨e, he⟩
    obtain he : (⟨.store (.getRefreshToken token), .error e⟩ : ServerEvent) ∈ tr := by
      simpa using he
    obtain rfl := honly token ⟨e, he⟩
    exact ⟨record, answer, by simp⟩
  · rcases List.mem_append.mp he with he | he
    · simpa [Op.storesRefresh] using hfirst _ he
    · cases List.mem_singleton.mp he
      exact absurd rfl (hanswer old)

/-- After a replay the revocation settles it. -/
theorem replay (done : Except (StoreError Unit) Unit) :
    Settled (tr ++ [⟨.store (.rotateRefreshToken presented record), .error (.replayed old)⟩] ++
      [⟨.store (.revokeRefreshFamily old.familyId), done⟩]) := by
  refine ⟨?_, fun token record' old' he => ?_⟩
  · rintro token ⟨e, he⟩
    obtain he : (⟨.store (.getRefreshToken token), .error e⟩ : ServerEvent) ∈ tr := by
      simpa using he
    obtain rfl := honly token ⟨e, he⟩
    exact ⟨record, .error (.replayed old), by simp⟩
  · rw [List.append_assoc] at he
    rcases List.mem_append.mp he with he | he
    · simpa [Op.storesRefresh] using hfirst _ he
    · rcases List.mem_append.mp he with he | he
      · cases List.mem_singleton.mp he
        exact ⟨done, by simp⟩
      · cases List.mem_singleton.mp he

end

end Settled

/-- Events that present no refresh token miss none. -/
theorem MissedRefresh.of_quietly (h : MissedRefresh tr' token) (hq : Quietly tr tr') :
    MissedRefresh tr token := by
  obtain ⟨ext, rfl, hext⟩ := hq
  obtain ⟨e, he⟩ := h
  rcases List.mem_append.mp he with he | he
  · exact ⟨e, he⟩
  · cases hext _ he

theorem not_missed_of_quietly (h : Quietly [] tr) : ¬ MissedRefresh tr token := by
  intro hm
  obtain ⟨e, he⟩ := hm.of_quietly h
  cases he

/-! ## Shared steps -/

section Specs

open Prog

variable {config : Config} {request : Request}
  {tr : List ServerEvent} {P : List ServerEvent → Op → Prop}

theorem spec_storeBind {α : Type} {Q : List ServerEvent → Except Errors α → Prop} {call : StoreCall}
    {f : call.Answer → Handler α} :
    Spec P Q tr ((liftM (callStore call) : Handler _) >>= f).run ↔
      P tr (.store call) ∧ ∀ r, Spec P Q (tr ++ [⟨.store call, r⟩]) (f r).run := by
  exact Iff.rfl

theorem spec_checkBind {α β : Type} {Q : List ServerEvent → Except Errors β → Prop}
    {r : Except Errors α} {f : α → Handler β} :
    Spec P Q tr (check r >>= f).run ↔
      match r with
      | .ok a => Spec P Q tr (f a).run
      | .error e => Q tr (.error e) := by
  cases r <;> exact Iff.rfl

/-- The condition allows the operations that resolve a client. -/
structure AllowsClients (P : List ServerEvent → Op → Prop) : Prop where
  get : ∀ tr clientId, P tr (.store (.getClient clientId))
  put : ∀ tr client, P tr (.store (.putClient client))
  cimd : ∀ tr clientId stored, P tr (.cimdResolve clientId stored)

theorem permit_allowsClients : AllowsClients (Permit config request) :=
  ⟨fun _ _ => trivial, fun _ _ => trivial, fun _ _ _ => trivial⟩

/-- Resolving a client is quiet, and the record stands in the trace. -/
def Resolves (tr tr' : List ServerEvent) (r : Except Errors Client) : Prop :=
  Quietly tr tr' ∧ ∀ client, r = .ok client → Resolved tr' client

section Clients

variable {P : List ServerEvent → Op → Prop}

theorem resolveCimd_spec (hP : AllowsClients P) (tr₀ tr : List ServerEvent)
    (hq : Quietly tr₀ tr) (clientId : String) (stored : Option Client) :
    Spec P (Resolves tr₀) tr (resolveClient.resolveCimd clientId stored).run := by
  unfold resolveClient.resolveCimd
  split
  · refine ⟨hP.cimd _ _ _, fun r => ?_⟩
    rcases r with e | ⟨client, fetched⟩
    · exact ⟨hq.snoc rfl, by simp⟩
    · cases fetched with
      | false =>
        refine ⟨hq.snoc rfl, fun client' h => ?_⟩
        cases h
        exact .inr ⟨clientId, stored, false, by simp⟩
      | true =>
        refine ⟨hP.put _ _, fun r => ⟨(hq.snoc rfl).snoc rfl, fun client' h => ?_⟩⟩
        cases h
        exact .inr ⟨clientId, stored, true, by simp⟩
  · exact ⟨hq, by simp⟩

theorem resolveClient_spec (hP : AllowsClients P) (tr : List ServerEvent)
    (clientId : Option String) :
    Spec P (Resolves tr) tr (resolveClient clientId).run := by
  cases clientId with
  | none => exact ⟨.refl tr, by simp⟩
  | some clientId =>
    unfold resolveClient
    rw [spec_storeBind]
    refine ⟨hP.get _ _, fun r => ?_⟩
    have hq : Quietly tr (tr ++ [⟨.store (.getClient clientId), r⟩]) := (Quietly.refl tr).snoc rfl
    rcases r with e | client
    · exact resolveCimd_spec hP tr _ hq clientId none
    · simp only [Except.toOption]
      split
      · exact ⟨hq, by simp⟩
      · split
        · exact ⟨hq, by simp [Resolved]⟩
        · exact resolveCimd_spec hP tr _ hq clientId _

theorem authenticateClient_spec (hP : AllowsClients P) (tr : List ServerEvent)
    (authorization : Option String) (params : Params) :
    Spec P (fun tr' _ => Quietly tr tr') tr
      (authenticateClient config authorization params).run := by
  unfold authenticateClient
  rw [spec_checkBind]
  split
  · rw [spec_exceptBind]
    refine (resolveClient_spec hP tr _).mono fun tr' r h => ?_
    cases r with
    | error => exact h.1
    | ok =>
      dsimp only
      rw [spec_checkBind]
      split <;> exact h.1
  · exact .refl tr

end Clients

theorem mintAccessToken_spec {grant : Grant} (h : Backed tr grant.scope) :
    Spec (Permit config request) (fun tr' _ => Quietly tr tr') tr
      (mintAccessToken config grant) := by
  refine ⟨trivial, fun now => ⟨trivial, fun jti => ⟨⟨grant.scope, rfl, ?_⟩, fun jwt => ?_⟩⟩⟩
  · exact h.mono (((Quietly.refl tr).snoc rfl).snoc rfl).sub
  · exact (((Quietly.refl tr).snoc rfl).snoc rfl).snoc rfl

theorem trackAccessToken_spec (tr : List ServerEvent) (claims : Claims) (grant : Grant) :
    Spec (Permit config request) (fun tr' _ => Quietly tr tr') tr
      (trackAccessToken config claims grant) := by
  unfold trackAccessToken
  split
  · exact ⟨trivial, fun r => (Quietly.refl tr).snoc rfl⟩
  · exact .refl tr

/-- A minted refresh token: quiet, drawn here, and a record of the grant. -/
def Mints (config : Config) (grant : Grant) (tr tr' : List ServerEvent)
    (r : String × RefreshToken) : Prop :=
  Quietly tr tr' ∧ DrewToken tr' r.1 ∧ ∃ id familyId now, DrewId tr' id ∧
    r.2 = refreshRecord config grant r.1 id familyId now ∧
    (grant.familyId = none ∨ grant.familyId = some familyId)

theorem mintRefreshToken_spec (tr : List ServerEvent) (grant : Grant) :
    Spec (Permit config request) (Mints config grant tr) tr (mintRefreshToken config grant) := by
  refine ⟨trivial, fun token => ⟨trivial, fun now => ⟨trivial, fun id => ?_⟩⟩⟩
  have hq := (((Quietly.refl tr).snoc (e := ⟨.generateToken, token⟩) rfl).snoc
    (e := ⟨.utcNow, now⟩) rfl).snoc (e := ⟨.generateId, id⟩) rfl
  cases hf : grant.familyId with
  | some familyId =>
    exact ⟨hq, by simp [DrewToken], id, familyId, now, by simp [DrewId], rfl, .inr hf⟩
  | none =>
    refine ⟨trivial, fun familyId => ⟨hq.snoc rfl, by simp [DrewToken], ?_⟩⟩
    exact ⟨id, familyId, now, by simp [DrewId], rfl, .inl hf⟩

theorem revokeFamily_spec {familyId : Option String}
    (hblame : ∀ f, familyId = some f → Blamed request tr f) :
    Spec (Permit config request)
      (fun tr' _ => Quietly tr tr' ∧ ∀ f, familyId = some f →
        ∃ done, (⟨.store (.revokeRefreshFamily f), done⟩ : ServerEvent) ∈ tr') tr
      (TokenPlug.revokeFamily familyId) := by
  cases familyId with
  | none => exact ⟨.refl tr, by simp⟩
  | some f =>
    refine ⟨hblame f rfl, fun r => ⟨(Quietly.refl tr).snoc rfl, ?_⟩⟩
    intro f' hf'
    cases hf'
    exact ⟨r, by simp⟩

end Specs

end NoizuMcp.Auth
