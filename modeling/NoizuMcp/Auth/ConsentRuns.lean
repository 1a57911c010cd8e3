import NoizuMcp.Auth.LoginRuns

/-!
# Consent along a run

Who consented to a code. The subject of a login state is always one that a
browser of that subject recorded by logging in on it, and a consent on record is
always one that an approval put there. So a code for a client that requires
consent is stored by an approval on a login state of the code's subject, or by a
browser of the subject itself under a consent remembered from such an approval
(`code_rests_on_consent`).

The approval itself is not tied to a browser: `POST /consent` asks the host for
no login, and a later login on the same state overwrites its subject. Whoever
holds the handle and the CSRF value approves in the name of the last browser that
logged in on the state (`stranger_approves`), unless login states stay with the
subject that started them.
-/

set_option autoImplicit false

namespace NoizuMcp.Auth.EtsRuns

open Foundation Protocol

variable {config : Config} {subjectOf : Nat → String} {forward : Bool}
  {p q : Server config subjectOf forward} {i j : Nat} {request : Request} {e : ServerEvent}

/-! ## Who is behind a login state -/

/-- Request `j` parked the login state with the key. -/
def ParkedBy (p : Server config subjectOf forward) (j : Nat) (key : String) : Prop :=
  ∃ state payload ttl answer,
    (j, ⟨.store (.putLoginState state payload ttl), answer⟩) ∈ p.log ∧
      config.host.tokenHash state = key

/-- A browser that the host knows as `subject` logged in on the login state. -/
def LoggedInOn (p : Server config subjectOf forward) (key subject : String) : Prop :=
  ∃ j request params state changes answer, p.Serves j request ∧
    request.endpoint = .authorize params ∧ subjectOf request.sender = subject ∧
    config.host.tokenHash state = key ∧
    (j, ⟨.store (.updateLoginState state changes), answer⟩) ∈ p.log

/-- The payload of a login state that was parked and takes its subject from logins. -/
structure Tracked (p : Server config subjectOf forward) (key : String) (payload : Payload) :
    Prop where
  parked : ∃ j, ParkedBy p j key
  subject : ∀ subject, payload.str "subject" = some subject → LoggedInOn p key subject

/-- A consent with the scope was put on record. -/
def Granted (p : Server config subjectOf forward) (subject clientId : String)
    (scope : List String) : Prop :=
  ∃ j consent answer, (j, ⟨.store (.putConsent consent), answer⟩) ∈ p.log ∧
    consent.subject = subject ∧ consent.clientId = clientId ∧ consent.scope = scope

section Mono

variable {key subject clientId : String} {payload : Payload} {scope : List String}

theorem ParkedBy.mono (h : ParkedBy p j key) (hl : Later p q) : ParkedBy q j key := by
  obtain ⟨state, payload, ttl, answer, hput, hkey⟩ := h
  exact ⟨state, payload, ttl, answer, hl.log hput, hkey⟩

theorem LoggedInOn.mono (h : LoggedInOn p key subject) (hl : Later p q) :
    LoggedInOn q key subject := by
  obtain ⟨j, request, params, state, changes, answer, hserves, hget, hsender, hkey, hupdate⟩ := h
  exact ⟨j, request, params, state, changes, answer, hl.serves hserves, hget, hsender, hkey,
    hl.log hupdate⟩

theorem Tracked.mono (h : Tracked p key payload) (hl : Later p q) : Tracked q key payload := by
  obtain ⟨j, hparked⟩ := h.parked
  exact ⟨⟨j, hparked.mono hl⟩, fun subject hs => (h.subject subject hs).mono hl⟩

theorem Granted.mono (h : Granted p subject clientId scope) (hl : Later p q) :
    Granted q subject clientId scope := by
  obtain ⟨j, consent, answer, hput, hrest⟩ := h
  exact ⟨j, consent, answer, hl.log hput, hrest⟩

end Mono

/-- What a run keeps of the subjects behind login states and consents. -/
structure Attributed (p : Server config subjectOf forward) : Prop where
  logins : ∀ i state subject request,
    (i, ⟨.upstreamAuthenticate state, .ok subject⟩) ∈ p.log →
    p.Serves i request → subjectOf request.sender = subject
  rows : ∀ key row, (store p).loginStates.lookup key = some row → Tracked p key row.payload
  reads : ∀ i state payload,
    (i, ⟨.store (.getLoginState state), .ok payload⟩) ∈ p.log →
    Tracked p (config.host.tokenHash state) payload
  consents : ∀ key row, (store p).consents.lookup key = some row →
    Granted p key.1 key.2 row.scope
  consentReads : ∀ i subject clientId granted,
    (i, ⟨.store (.getConsent subject clientId), .ok granted⟩) ∈ p.log →
    Granted p subject clientId granted.scope

namespace Attributed

theorem initial (now : DateTime) :
    Attributed ((Deployment.ets config subjectOf forward).initial now) where
  logins := fun _ _ _ _ he => by cases he
  rows := fun _ _ hrow => by cases hrow
  reads := fun _ _ _ he => by cases he
  consents := fun _ _ hrow => by cases hrow
  consentReads := fun _ _ _ _ he => by cases he

section

variable (ha : Attributed p) (h : Ran p i request e q) (hl : Later p q)

include ha h hl

theorem ran_rows :
    ∀ key row, (store q).loginStates.lookup key = some row → Tracked q key row.payload := by
  intro key row hrow
  have hpermit := h.permit
  have heffect := h.logins
  have hself := h.mem_log.mpr (.inr ⟨rfl, rfl⟩)
  generalize (store q).loginStates = t' at heffect hrow
  cases heffect with
  | put =>
    rw [Table.lookup_insert_ite] at hrow
    split at hrow
    · cases hrow
      -- a parked payload carries no subject yet
      obtain ⟨authRequest, csrfToken, rfl, -⟩ := Parks.content hpermit
      refine ⟨⟨i, _, _, _, _, hself, by simp_all⟩, fun subject hs => ?_⟩
      cases hs
    · exact (ha.rows key row hrow).mono hl
  | update found =>
    rw [Table.lookup_insert_ite] at hrow
    split at hrow
    · rename_i hkey
      cases hrow
      obtain ⟨-, ⟨params, hget⟩, subject, hlogin, rfl⟩ := hpermit
      refine ⟨hkey ▸ ((ha.rows _ _ found).mono hl).parked, fun subject' hs => ?_⟩
      cases hs
      exact ⟨i, request, params, _, _, _, hl.serves h.serves_self, hget,
        ha.logins i _ _ request (Pool.mem_own.mp hlogin) h.serves_self, hkey.symm, hself⟩
    · exact (ha.rows key row hrow).mono hl
  | take =>
    rw [Table.lookup_erase_ite] at hrow
    split at hrow
    · cases hrow
    · exact (ha.rows key row hrow).mono hl
  | same => exact (ha.rows key row hrow).mono hl

theorem ran_reads : ∀ j state payload,
      (j, ⟨.store (.getLoginState state), .ok payload⟩) ∈ q.log →
      Tracked q (config.host.tokenHash state) payload := by
  intro j state payload he
  rcases h.mem_log.mp he with he | ⟨rfl, rfl⟩
  · exact (ha.reads j state payload he).mono hl
  · obtain ⟨fresh, hperform⟩ := h.answer _ _ rfl
    have hanswer := congrArg Prod.fst hperform
    simp only [StoreEts.perform, StoreEts.getLoginState] at hanswer
    split at hanswer
    · rename_i hrow
      split at hanswer
      · cases hanswer
      · cases hanswer
        exact (ha.rows _ _ hrow).mono hl
    · cases hanswer

theorem ran_consents :
    ∀ key row, (store q).consents.lookup key = some row → Granted q key.1 key.2 row.scope := by
  intro key row hrow
  have heffect := h.consents
  have hself := h.mem_log.mpr (.inr ⟨rfl, rfl⟩)
  generalize (store q).consents = t' at heffect hrow
  cases heffect with
  | put =>
    rw [Table.lookup_insert_ite] at hrow
    split at hrow
    · rename_i hkey
      cases hrow
      subst hkey
      exact ⟨i, _, _, hself, rfl, rfl, rfl⟩
    · exact (ha.consents key row hrow).mono hl
  | same => exact (ha.consents key row hrow).mono hl

theorem ran_consentReads : ∀ j subject clientId granted,
      (j, ⟨.store (.getConsent subject clientId), .ok granted⟩) ∈ q.log →
      Granted q subject clientId granted.scope := by
  intro j subject clientId granted he
  rcases h.mem_log.mp he with he | ⟨rfl, rfl⟩
  · exact (ha.consentReads j subject clientId granted he).mono hl
  · obtain ⟨fresh, hperform⟩ := h.answer _ _ rfl
    have hanswer := congrArg Prod.fst hperform
    simp only [StoreEts.perform, StoreEts.getConsent] at hanswer
    split at hanswer
    · rename_i hrow
      split at hanswer
      · cases hanswer
      · cases hanswer
        exact (ha.consents _ _ hrow).mono hl
    · cases hanswer

end

theorem ran (hp : Sound p) (ha : Attributed p) (h : Ran p i request e q) : Attributed q := by
  have hl : Later p q := (Later.refl p).ran hp h
  refine ⟨?_, ha.ran_rows h hl, ha.ran_reads h hl, ha.ran_consents h hl, ha.ran_consentReads h hl⟩
  intro j state subject request' he hserves
  have hserves' := h.serves.mp hserves
  rcases h.mem_log.mp he with he | ⟨rfl, rfl⟩
  · exact ha.logins j state subject request' he hserves'
  · obtain rfl := hserves'.unique h.serves_self
    exact (h.login state subject rfl).symm

theorem around (hp : Sound p) (ha : Attributed p) (h : Around p q) : Attributed q := by
  have hl : Later p q := (Later.refl p).around h
  refine ⟨?_, ?_, ?_, ?_, ?_⟩
  · intro i state subject request he hserves
    rw [h.log] at he
    obtain ⟨request', _, hserves', -⟩ := hp.logged he
    obtain rfl := hserves.unique (h.serves_mono hserves')
    exact ha.logins i state subject request he hserves'
  · intro key row hrow
    exact (ha.rows key row (h.logins ▸ hrow)).mono hl
  · intro i state payload he
    exact (ha.reads i state payload (h.log ▸ he)).mono hl
  · intro key row hrow
    exact (ha.consents key row (h.consents ▸ hrow)).mono hl
  · intro i subject clientId granted he
    exact (ha.consentReads i subject clientId granted (h.log ▸ he)).mono hl

end Attributed

theorem attributed_of_reach {now : DateTime}
    (h : (Deployment.ets config subjectOf forward).service.Reach
      ((Deployment.ets config subjectOf forward).initial now) p) : Sound p ∧ Attributed p :=
  Sound.invariant Attributed (fun hx ha _ hran => ha.ran hx hran)
    (fun hx ha haround => ha.around hx haround) h (.initial now) (.initial now)

/-! ## Approvals -/

/-- Request `j` is an approval on a login state of `subject`: a `POST /consent`
with the CSRF value of a login state on which a browser of `subject` logged in. -/
structure Approves (p : Server config subjectOf forward) (j : Nat) (params : Params)
    (state subject : String) : Prop where
  posted : ∃ request, p.Serves j request ∧ request.endpoint = .consent params
  decision : params.raw "decision" = some "approve"
  named : params.raw "login_state" = some state
  shown : ∃ payload, (j, ⟨.store (.getLoginState state), .ok payload⟩) ∈ p.log ∧
    ConsentGate.validCsrf config.host payload (params.raw "csrf_token") = true
  subject : LoggedInOn p (config.host.tokenHash state) subject

/-- What lets request `i` store a code for a client that requires consent. -/
inductive Consented (p : Server config subjectOf forward) (i : Nat) (record : AuthorizationCode) :
    Prop where
  /-- The request is itself the approval. -/
  | approval {params : Params} {state : String}
      (approves : Approves p i params state record.subject)
  /-- A browser of the subject, under a consent that an approval put on record. -/
  | remembered {request : Request} {params : Params} {j : Nat} {consent : Consent}
      {answer : Except (StoreError Unit) Unit} {posted : Params} {state : String}
      (serves : p.Serves i request) (endpoint : request.endpoint = .authorize params)
      (sender : subjectOf request.sender = record.subject)
      (recorded : (j, ⟨.store (.putConsent consent), answer⟩) ∈ p.log)
      (subject : consent.subject = record.subject) (client : consent.clientId = record.clientId)
      (covers : record.scope ⊆ consent.scope)
      (approves : Approves p j posted state record.subject)

variable {answer : Except (StoreError Unit) Unit} {record : AuthorizationCode}
  {key state subject : String}

/-- A recorded consent was put on record by an approval. -/
theorem Attributed.recorded (hp : Sound p) (ha : Attributed p) {consent : Consent}
    (h : (j, ⟨.store (.putConsent consent), answer⟩) ∈ p.log) :
    ∃ params state, Approves p j params state consent.subject := by
  obtain ⟨request, before, hserves, hsub, hrecords⟩ := hp.logged h
  obtain ⟨params, state, payload, hpost, hdecision, hnamed, hloaded, hcsrf, hsubject⟩ := hrecords
  have htracked := ha.reads j state payload (hsub _ hloaded)
  exact ⟨params, state, ⟨request, hserves, hpost⟩, hdecision, hnamed,
    ⟨payload, hsub _ hloaded, hcsrf⟩, htracked.subject _ hsubject⟩

/-- What a code stands on is consented. -/
theorem Attributed.consented (hp : Sound p) (ha : Attributed p) (hserves : p.Serves i request)
    {client : Client} (hstands : Stands config request (p.own i) state record client)
    (hrequires : client.requiresConsent config = true) : Consented p i record := by
  cases hstands with
  | login _ endpoint subject consent =>
    have hsender := ha.logins i state _ request (Pool.mem_own.mp subject) hserves
    obtain ⟨granted, hread, hcovers⟩ := consent hrequires
    obtain ⟨j, consent, answer, hput, hsubject, hclient, hscope⟩ :=
      ha.consentReads i _ _ granted (Pool.mem_own.mp hread)
    obtain ⟨posted, state', happroves⟩ := ha.recorded hp hput
    exact .remembered hserves endpoint hsender hput hsubject hclient (hscope ▸ hcovers)
      (hsubject ▸ happroves)
  | approval _ payload endpoint decision named loaded csrf subject =>
    have htracked := ha.reads i state payload (Pool.mem_own.mp loaded)
    exact .approval ⟨⟨request, hserves, endpoint⟩, decision, named,
      ⟨payload, Pool.mem_own.mp loaded, csrf⟩, htracked.subject _ subject⟩

/-! ## Login states that stay with their subject -/

/-- The requests that parked a login state with the handle's digest. -/
def parkers (p : Server config subjectOf forward) (state : String) : List Nat :=
  p.log.filterMap fun x => match x.2 with
    | ⟨.store (.putLoginState other _ _), _⟩ =>
      if config.host.tokenHash other = config.host.tokenHash state then some x.1 else none
    | _ => none

/-- An arriving request that names a login state is sent by the subject whose
browser parked it. -/
def unshared (p : Server config subjectOf forward) : Action Request Choice Move → Bool
  | .arrive request =>
    match request.endpoint.params.raw "login_state" with
    | some state => (parkers p state).all fun j =>
      match p.threads[j]? with
      | some (parker, _) => subjectOf parker.sender == subjectOf request.sender
      | none => true
    | none => true
  | _ => true

/-- Every request that names a login state is sent by the subject that parked it. -/
def Unshared (p : Server config subjectOf forward) : Prop :=
  ∀ i j request parker state,
    p.Serves i request → request.endpoint.params.raw "login_state" = some state →
    ParkedBy p j (config.host.tokenHash state) → p.Serves j parker →
    subjectOf parker.sender = subjectOf request.sender

theorem mem_parkers (h : ParkedBy p j (config.host.tokenHash state)) : j ∈ parkers p state := by
  obtain ⟨other, payload, ttl, answer, hput, hkey⟩ := h
  exact List.mem_filterMap.mpr ⟨_, hput, if_pos hkey⟩

section

variable (hp : Sound p)

include hp

theorem ParkedBy.serves (h : ParkedBy p j key) : ∃ parker, p.Serves j parker := by
  obtain ⟨_, _, _, _, hput, -⟩ := h
  obtain ⟨parker, _, hserves, -⟩ := hp.logged hput
  exact ⟨parker, hserves⟩

theorem Unshared.ran (hu : Unshared p) (h : Ran p i request e q) : Unshared q := by
  intro i' j request' parker state hserves hnamed hparked hparker
  have hserves' := h.serves.mp hserves
  obtain ⟨other, payload, ttl, answer, hput, hkey⟩ := hparked
  rcases h.mem_log.mp hput with hput | ⟨rfl, rfl⟩
  · exact hu i' j request' parker state hserves' hnamed ⟨other, payload, ttl, answer, hput, hkey⟩
      (h.serves.mp hparker)
  · -- nobody can name a handle before its request is answered
    have hdrew : Drew p j other := .ofToken (Parks.handle h.permit)
    exact absurd hkey (hp.secrets.not_carried h hdrew hserves' (named_mem_strings hnamed))

theorem Unshared.step (hu : Unshared p) {a : Action Request Choice Move} (hC : unshared p a = true)
    (hs : (Deployment.ets config subjectOf forward).service.step p a = some q) : Unshared q := by
  rcases Service.step_cases hs with ⟨arrived, rfl, -, rfl⟩ | ⟨i, choice, _, _, _, _, _, rfl, -⟩ |
    ⟨m, w, rfl, -, rfl⟩
  · intro i j request parker state hserves hnamed hparked hparker
    obtain ⟨parker', hparker'⟩ := ParkedBy.serves hp hparked
    obtain rfl := hparker.unique (Pool.serves_arrive.mpr (.inl hparker'))
    rcases Pool.serves_arrive.mp hserves with hserves | ⟨-, rfl⟩
    · exact hu i j request parker state hserves hnamed hparked hparker'
    · obtain ⟨prog, hthread⟩ := hparker'
      simp only [unshared, hnamed] at hC
      simpa [hthread] using List.all_eq_true.mp hC j (mem_parkers hparked)
  · rcases step_cases hp.coherent hs with ⟨i', request, e, -, hran⟩ | ⟨hne, -⟩
    · exact hu.ran hp hran
    · exact absurd rfl (hne i choice)
  · exact hu

/-- The handle a request parked is one it drew. -/
theorem Sound.parked_drew {payload : Payload} {ttl : Nat}
    (h : (j, ⟨.store (.putLoginState state payload ttl), answer⟩) ∈ p.log) :
    Drew p j state := by
  obtain ⟨_, before, -, hsub, hparks⟩ := hp.logged h
  exact ⟨_, hsub _ (Parks.handle hparks), rfl⟩

/-- A browser that logged in on a login state is of the subject that parked it. -/
theorem Unshared.parker (hu : Unshared p) {parker : Request}
    (hlogged : LoggedInOn p key subject) (hparked : ParkedBy p j key)
    (hserves : p.Serves j parker) : subjectOf parker.sender = subject := by
  obtain ⟨j', request, params, state, changes, answer, hrequest, -, rfl, rfl, hupdate⟩ := hlogged
  obtain ⟨request', before, hrequest', hsub, hnames, -⟩ := hp.logged hupdate
  obtain rfl := hrequest.unique hrequest'
  rcases hnames with hnamed | ⟨payload, ttl, parked, hput⟩
  · exact hu j' j request parker state hrequest hnamed hparked hserves
  · -- its own login state: no other request drew the handle
    obtain ⟨other, _, _, _, hother, hkey⟩ := hparked
    obtain ⟨rfl, -⟩ :=
      hp.secrets.distinct (hp.parked_drew hother) (hp.parked_drew (hsub _ hput)) hkey
    rw [hserves.unique hrequest]

/-- With login states that stay with their subject, an approval is sent by the
subject it is for. -/
theorem Unshared.approver (ha : Attributed p) (hu : Unshared p) {params : Params}
    (h : Approves p j params state subject) (hserves : p.Serves j request) :
    subjectOf request.sender = subject := by
  obtain ⟨request', hserves', hpost⟩ := h.posted
  obtain rfl := hserves.unique hserves'
  obtain ⟨payload, hread, -⟩ := h.shown
  obtain ⟨j₀, hparked⟩ := (ha.reads j state payload hread).parked
  obtain ⟨parker, hparker⟩ := hparked.serves hp
  have hnamed : request.endpoint.params.raw "login_state" = some state := by
    rw [hpost]
    exact h.named
  calc subjectOf request.sender
      = subjectOf parker.sender :=
        (hu j j₀ request parker state hserves hnamed hparked hparker).symm
    _ = subject := hu.parker hp h.subject hparked hparker

/-! ## Codes rest on consent -/

/-- The code that the last step stored. -/
def lastCode (p : Server config subjectOf forward) : Option AuthorizationCode :=
  match p.log.getLast? with
  | some (_, ⟨.store (.putAuthorizationCode record), .ok _⟩) => some record
  | _ => none

/-- The next operation of request `i` stores the code. -/
def StoresCode (p : Server config subjectOf forward) (i : Nat) (record : AuthorizationCode) :
    Prop :=
  ∃ choice q, (Deployment.ets config subjectOf forward).service.step p (.run i choice) = some q ∧
    lastCode q = some record

theorem Sound.issues_of_storesCode (h : StoresCode p i record) :
    ∃ request, p.Serves i request ∧ IssuesCode config request (p.own i) record := by
  obtain ⟨choice, q, hstep, hlast⟩ := h
  rcases step_cases hp.coherent hstep with ⟨i', request, e, ⟨choice', ha⟩, hran⟩ | ⟨hne, -⟩
  · cases ha
    have hpermit := hran.permit
    rw [lastCode, hran.log, List.getLast?_concat] at hlast
    split at hlast
    · rename_i heq
      cases heq
      cases hlast
      exact ⟨request, hran.serves_self, hpermit⟩
    · cases hlast
  · exact absurd rfl (hne i choice)

end

/-- A code for a client that requires consent is stored only by an approval on a
login state of the code's subject, or by a browser of the subject under a consent
that such an approval put on record. Where login states stay with the subject
that started them, approvals are sent by the subject they are for. -/
theorem code_rests_on_consent (now : DateTime) :
    (∀ (p : Server config subjectOf forward) (i : Nat) (record : AuthorizationCode),
      (Deployment.ets config subjectOf forward).service.Reach
        ((Deployment.ets config subjectOf forward).initial now) p →
      StoresCode p i record →
      ∃ client, Resolved (p.own i) client ∧ record.clientId = client.clientId ∧
        (client.requiresConsent config = true → Consented p i record)) ∧
    ∀ (p : Server config subjectOf forward) (j : Nat) (request : Request) (params : Params)
      (state subject : String),
      (Deployment.ets config subjectOf forward).service.ReachUnder
        (fun p a => unshared p a = true) ((Deployment.ets config subjectOf forward).initial now) p →
      p.Serves j request → Approves p j params state subject →
      subjectOf request.sender = subject := by
  constructor
  · intro p i record hreach hstores
    obtain ⟨hp, ha⟩ := attributed_of_reach hreach
    obtain ⟨request, hserves, hissues⟩ := hp.issues_of_storesCode hstores
    obtain ⟨state, client, hresolved, hclient, -, hstands⟩ := hissues.stands
    exact ⟨client, hresolved, hclient, ha.consented hp hserves hstands⟩
  · intro p j request params state subject hunder hserves happroves
    obtain ⟨hp, ha⟩ := attributed_of_reach hunder.reach
    have hshared : Sound p ∧ Unshared p := by
      refine hunder.invariant (fun x => Sound x ∧ Unshared x) ?_ ⟨.initial now, ?_⟩
      · rintro x a y ⟨hx, hu⟩ hC hs
        exact ⟨hx.step hs, hu.step hx hC hs⟩
      · rintro i j request parker state ⟨prog, hthread⟩
        cases hthread
    exact hshared.2.approver hp ha happroves hserves

/-- The requests that recorded a consent, with the subject they recorded it for. -/
def recorders (p : Server config subjectOf forward) : List (Nat × String) :=
  p.log.filterMap fun x => match x.2 with
    | ⟨.store (.putConsent consent), _⟩ => some (x.1, consent.subject)
    | _ => none

theorem mem_recorders (h : (j, subject) ∈ recorders p) :
    ∃ consent answer, (j, ⟨.store (.putConsent consent), answer⟩) ∈ p.log ∧
      consent.subject = subject := by
  obtain ⟨⟨j', e⟩, he, heq⟩ := List.mem_filterMap.mp h
  dsimp only at heq
  split at heq
  · cases heq
    exact ⟨_, _, he, rfl⟩
  · cases heq

/-- Party `0` starts a login, is shown the consent page and approves; request `1`
is about to store the code. -/
def ownApproval : List (Action Request Choice Move) :=
  [.move (.register Sample.consentClient), .arrive (Sample.authorizeRequest 0)] ++
    Sample.steps 0 ["", "state-1", "csrf-1", ""] ++ [.run 0 { upstream := .ok "" }] ++
    Sample.steps 0 ["", ""] ++ [.arrive (Sample.approveRequest 0 "state-1" "csrf-1")] ++
    Sample.steps 1 ["", "", "", "", "", "", "code-1", "family-1", "", ""]

theorem code_rests_on_consent_sample :
    ∃ (p : Server Sample.config Sample.subjectOf true) (record : AuthorizationCode)
      (params : Params) (state : String),
      StoresCode p 1 record ∧ Approves p 1 params state "alice" ∧
      (∃ client, Resolved (p.own 1) client ∧ record.clientId = client.clientId ∧
        (client.requiresConsent Sample.config = true → Consented p 1 record)) ∧
      ∃ request, p.Serves 1 request ∧ Sample.subjectOf request.sender = "alice" := by
  have hrun : (((Deployment.ets Sample.config Sample.subjectOf true).service.runsIf unshared
      ((Deployment.ets Sample.config Sample.subjectOf true).initial 0) ownApproval).bind fun p =>
        ((Deployment.ets Sample.config Sample.subjectOf true).service.step p (Sample.go 1 "")).bind
          fun q => if recorders p = [(1, "alice")] then lastCode q else none).isSome = true := by
    decide +kernel
  obtain ⟨record, hrecord⟩ := Option.isSome_iff_exists.mp hrun
  obtain ⟨p, hp, hrest⟩ := Option.bind_eq_some_iff.mp hrecord
  obtain ⟨q, hstep, hlast⟩ := Option.bind_eq_some_iff.mp hrest
  split at hlast
  swap
  · cases hlast
  rename_i hrecorders
  have hunder := Service.reachUnder_of_runsIf hp
  have hstores : StoresCode p 1 record := ⟨_, q, hstep, hlast⟩
  obtain ⟨hsound, hattributed⟩ := attributed_of_reach hunder.reach
  obtain ⟨consent, answer, hput, hsubject⟩ := mem_recorders (hrecorders ▸ List.mem_singleton_self _)
  obtain ⟨params, state, happroves⟩ := hattributed.recorded hsound hput
  rw [hsubject] at happroves
  obtain ⟨request, hserves, -⟩ := happroves.posted
  exact ⟨p, record, params, state, hstores, happroves,
    (code_rests_on_consent 0).1 p 1 record hunder.reach hstores, request, hserves,
    (code_rests_on_consent 0).2 p 1 request params state "alice" hunder hserves happroves⟩

/-- A stored code as seen from outside: its subject, the subject of the browser
whose request stored it, whether that request is an approval, and whether the
client requires consent. -/
structure Issuance where
  subject : String
  sender : String
  approval : Bool
  requiresConsent : Bool
  deriving DecidableEq

/-- The codes stored in a run. -/
def issuances (p : Server config subjectOf forward) : List Issuance :=
  p.log.filterMap fun x => match x.2, p.threads[x.1]? with
    | ⟨.store (.putAuthorizationCode record), .ok _⟩, some (request, _) => some
        { subject := record.subject
          sender := subjectOf request.sender
          approval := request.endpoint.params.raw "decision" == some "approve"
          requiresConsent := (p.own x.1).any fun e => match e with
            | ⟨.store (.getClient _), .ok client⟩ => client.requiresConsent config
            | _ => false }
    | _, _ => none

/-- Party `1` starts a login, is shown the consent page and passes the handle to
party `0`, who comes back on it and logs in. Party `1` approves. Then party `0`
starts a login of its own. -/
def strangerApproval : List (Action Request Choice Move) :=
  [.move (.register Sample.consentClient), .arrive (Sample.authorizeRequest 1)] ++
    Sample.steps 0 ["", "state-1", "csrf-1", ""] ++ [.run 0 { upstream := .ok "" }] ++
    Sample.steps 0 ["", ""] ++ [.arrive (Sample.resumeRequest 0 "state-1")] ++
    Sample.steps 1 ["", ""] ++ [.run 1 { upstream := .ok "" }] ++ Sample.steps 1 ["", ""] ++
    [.arrive (Sample.approveRequest 1 "state-1" "csrf-1")] ++
    Sample.steps 2 ["", "", "", "", "", "", "code-1", "family-1", "", "", ""] ++
    [.arrive (Sample.authorizeRequest 0)] ++ Sample.steps 3 ["", "state-2", "csrf-2", ""] ++
    [.run 3 { upstream := .ok "" }] ++ Sample.steps 3 ["", "", "", "code-2", "family-2", "", "", ""]

/-- Mallory's approval stores a code for alice, and alice's next login is given a
code without being asked. -/
theorem stranger_approves : ∃ p : Server Sample.config Sample.subjectOf true,
    (Deployment.ets Sample.config Sample.subjectOf true).Reachable p ∧
    issuances p = [⟨"alice", "mallory", true, true⟩, ⟨"alice", "alice", false, true⟩] := by
  exact Sample.exists_reachable strangerApproval issuances _ (by decide +kernel)

end NoizuMcp.Auth.EtsRuns
