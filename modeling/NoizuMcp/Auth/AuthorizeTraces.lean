import NoizuMcp.Auth.TokenTraces

/-!
# Traces of the authorization endpoint

A code is stored only on a login or an approval (`Stands`), and only after the
login state was consumed. With the other two endpoints this gives the
specification of every handler, `handler_spec`.
-/

set_option autoImplicit false

namespace NoizuMcp.Auth

open Foundation Protocol

section Specs

open Prog

variable {config : Config} {request : Request}

namespace AuthorizePlug

variable {tr : List ServerEvent} {authRequest : AuthRequest} {state subject : String}
  {client : Client} {scope : List String} {params : Params} {payload : Payload}

/-- Code issuance, for any justification that survives a growing trace. -/
theorem issueCode_spec (hresolved : Resolved tr client) (hnames : Names request tr state)
    (htake : Silent Op.takesLogin tr) (hfirst : Silent Op.storesCode tr)
    (hstands : ∀ tr' record, tr ⊆ tr' → record.subject = subject →
      record.clientId = client.clientId → record.scope = authRequest.scope →
      Stands config request tr' state record client) :
    Spec (Permit config request) (fun _ _ => True) tr
      (issueCode config client subject authRequest state) := by
  refine ⟨⟨hnames, htake⟩, fun taken => ⟨trivial, fun code => ⟨trivial, fun familyId => ⟨trivial,
    fun base => ⟨trivial, fun inserted => ⟨?_, fun answer => ?_⟩⟩⟩⟩⟩⟩
  · set tr' := tr ++ [⟨.store (.takeLoginState state), taken⟩] ++ [⟨.generateToken, code⟩] ++
      [⟨.generateId, familyId⟩] ++ [⟨.utcNow, base⟩] ++ [⟨.utcNow, inserted⟩] with htr'
    have hsub : tr ⊆ tr' := fun e he => by simp [htr', he]
    refine ⟨?_, ⟨code, rfl, by simp [htr', DrewToken]⟩, ⟨familyId, rfl, by simp [htr', DrewId]⟩,
      rfl, state, client, ?_, rfl, ⟨taken, by simp [htr']⟩, hstands tr' _ hsub rfl rfl rfl⟩
    · simp [htr', hfirst, Op.storesCode]
    · exact hresolved.mono hsub
  · rcases answer with e | _ <;> trivial

theorem skip_spec :
    Spec (Permit config request) (fun tr' skipped => Quietly tr tr' ∧ (skipped = true →
      client.requiresConsent config = true → ∃ granted : Consent,
        (⟨.store (.getConsent subject client.clientId), .ok granted⟩ : ServerEvent) ∈ tr' ∧
          scope ⊆ granted.scope)) tr
      (ConsentGate.skip config client subject scope) := by
  unfold ConsentGate.skip
  split
  · refine ⟨trivial, fun answer => ?_⟩
    have hq : Quietly tr (tr ++ [⟨.store (.getConsent subject client.clientId), answer⟩]) :=
      (Quietly.refl tr).snoc rfl
    rcases answer with e | granted
    · exact ⟨hq, by simp⟩
    · refine ⟨hq, fun hskip _ => ⟨granted, by simp, fun s hs => ?_⟩⟩
      simpa using List.all_eq_true.mp hskip s hs
  · rename_i hreq
    exact ⟨.refl tr, fun _ h => absurd h hreq⟩

theorem gateConsent_spec (hendpoint : request.endpoint = .authorize params)
    (hlogin : (⟨.upstreamAuthenticate state, .ok subject⟩ : ServerEvent) ∈ tr)
    (hresolved : Resolved tr client) (hnames : Names request tr state)
    (htake : Silent Op.takesLogin tr) (hfirst : Silent Op.storesCode tr) :
    Spec (Permit config request) (fun _ _ => True) tr
      (gateConsent config client subject state payload) := by
  refine spec_bind.mpr (skip_spec.mono fun tr₁ skipped h => ?_)
  obtain ⟨hq, hconsent⟩ := h
  cases skipped with
  | false => trivial
  | true =>
    refine issueCode_spec (hresolved.mono hq.sub) (hnames.mono hq.sub)
      (hq.silent (fun _ h => (minor_kinds h).2.2.2.2.1) htake)
      (hq.silent (fun _ h => (minor_kinds h).2.2.1) hfirst) ?_
    intro tr' record hsub hsubject hclient hscope
    refine .login params hendpoint ?_ fun hreq => ?_
    · rw [hsubject]
      exact hsub (hq.sub hlogin)
    · obtain ⟨granted, hmem, hcovers⟩ := hconsent rfl hreq
      rw [hsubject, hclient, hscope]
      exact ⟨granted, hsub hmem, hcovers⟩

theorem authenticate_spec (hendpoint : request.endpoint = .authorize params)
    (hresolved : Resolved tr client) (hnames : Names request tr state)
    (htake : Silent Op.takesLogin tr) (hfirst : Silent Op.storesCode tr) :
    Spec (Permit config request) (fun _ _ => True) tr
      (authenticate config client state payload) := by
  refine ⟨trivial, fun answer => ?_⟩
  rcases answer with subject | url | _ | _
  · have hnames' : ∀ {tr'}, tr ⊆ tr' → Names request tr' state := fun hsub => hnames.mono hsub
    refine ⟨⟨hnames' (by simp), ⟨params, hendpoint⟩, subject, by simp, rfl⟩, fun updated => ?_⟩
    exact gateConsent_spec hendpoint (by simp) (hresolved.mono fun e he => by simp [he])
      (hnames' fun e he => by simp [he]) (by simp [htake, Op.takesLogin])
      (by simp [hfirst, Op.storesCode])
  · trivial
  · trivial
  · trivial

theorem loadState_spec (hnamed : request.endpoint.params.raw "login_state" = some state) :
    Spec (Permit config request)
      (fun tr' r => ∃ answer, tr' = tr ++ [⟨.store (.getLoginState state), answer⟩] ∧
        ∀ payload, r = .ok payload → answer = .ok payload) tr
      (loadState state).run := by
  refine spec_storeBind.mpr ⟨hnamed, fun answer => ?_⟩
  rcases answer with e | payload
  · exact ⟨.error e, rfl, by simp⟩
  · refine ⟨.ok payload, rfl, fun payload' h => ?_⟩
    cases h
    rfl

section

variable (hendpoint : request.endpoint = .authorize params)

include hendpoint

theorem resume_spec (hnamed : params.raw "login_state" = some state) :
    Spec (Permit config request) (fun _ _ => True) [] (resume config state) := by
  have hraw : request.endpoint.params.raw "login_state" = some state := by
    rw [hendpoint]
    exact hnamed
  refine spec_bind.mpr (spec_exceptBind.mpr ((loadState_spec hraw).mono fun tr r h => ?_))
  obtain ⟨answer, rfl, -⟩ := h
  rcases r with e | payload
  · trivial
  refine spec_exceptBind.mpr ((resolveClient_spec permit_allowsClients _ _).mono fun tr r h => ?_)
  obtain ⟨hq, hresolved⟩ := h
  rcases r with e | client
  · trivial
  refine authenticate_spec hendpoint (hresolved client rfl) (.inl hraw) ?_ ?_
  · exact hq.silent (fun _ h => (minor_kinds h).2.2.2.2.1) (by simp [Op.takesLogin])
  · exact hq.silent (fun _ h => (minor_kinds h).2.2.1) (by simp [Op.storesCode])

theorem parkAndContinue_spec (hresolved : Resolved tr client) (hparks : Silent Op.parksLogin tr)
    (htake : Silent Op.takesLogin tr) (hfirst : Silent Op.storesCode tr) :
    Spec (Permit config request) (fun _ _ => True) tr
      (parkAndContinue config client authRequest) := by
  refine ⟨trivial, fun state => ⟨trivial, fun csrfToken =>
    ⟨⟨?_, ?_, authRequest, csrfToken, rfl, ?_⟩,
    fun answer => ?_⟩⟩⟩
  · simp [hparks, Op.parksLogin]
  · simp [DrewToken]
  · simp [DrewToken]
  · rcases answer with e | _
    · trivial
    · refine authenticate_spec hendpoint (hresolved.mono fun e he => by simp [he])
        (.inr ⟨_, _, _, List.mem_append_right _ (List.mem_singleton_self _)⟩)
        (by simp [htake, Op.takesLogin]) (by simp [hfirst, Op.storesCode])

theorem start_spec : Spec (Permit config request) (fun _ _ => True) [] (start config params) := by
  refine spec_bind.mpr (spec_checkBind.mpr ?_)
  split
  swap
  · trivial
  refine spec_exceptBind.mpr ((resolveClient_spec permit_allowsClients [] _).mono fun tr r h => ?_)
  obtain ⟨hq, hresolved⟩ := h
  rcases r with e | client
  · trivial
  refine spec_checkBind.mpr ?_
  split
  swap
  · trivial
  split
  swap
  · trivial
  refine spec_exceptPure.mpr ?_
  dsimp only
  split
  · exact parkAndContinue_spec hendpoint (hresolved client rfl)
      (hq.silent (fun _ h => (minor_kinds h).2.2.2.1) (silent_nil _))
      (hq.silent (fun _ h => (minor_kinds h).2.2.2.2.1) (silent_nil _))
      (hq.silent (fun _ h => (minor_kinds h).2.2.1) (silent_nil _))
  · trivial

theorem authorize_spec :
    Spec (Permit config request) (fun _ _ => True) [] (authorize config params) := by
  unfold authorize
  split
  · rename_i state hnamed
    split
    · exact start_spec hendpoint
    · exact resume_spec hendpoint hnamed
  · exact start_spec hendpoint

end

theorem statedSubject_eq (h : statedSubject payload = .ok subject) :
    payload.str "subject" = some subject := by
  unfold statedSubject at h
  split at h
  · rename_i stated hstated
    split at h
    · cases h
    · cases h
      exact hstated
  · cases h

theorem checkCsrf_eq (h : checkCsrf config payload params = .ok ()) :
    ConsentGate.validCsrf config.host payload (params.raw "csrf_token") = true := by
  unfold checkCsrf at h
  split at h
  · assumption
  · cases h

theorem record_spec {resource : Option String}
    (hrecords : ∀ tr' consent, tr ⊆ tr' → consent.subject = subject →
      RecordsConsent config request tr' consent) :
    Spec (Permit config request) (fun tr' _ => Quietly tr tr') tr
      (ConsentGate.record config client subject scope resource) := by
  unfold ConsentGate.record ConsentGate.expiry
  refine ⟨trivial, fun answer => ⟨trivial, fun now => ?_⟩⟩
  have hq : Quietly tr (tr ++ [⟨.store (.getConsent subject client.clientId), answer⟩] ++
      [⟨.utcNow, now⟩]) := ((Quietly.refl tr).snoc rfl).snoc rfl
  split
  · exact ⟨hrecords _ _ hq.sub rfl, fun _ => hq.snoc rfl⟩
  · refine ⟨trivial, fun base => ⟨hrecords _ _ (hq.snoc rfl).sub rfl, fun _ => ?_⟩⟩
    exact (hq.snoc rfl).snoc rfl

theorem decide_spec (hendpoint : request.endpoint = .consent params)
    (hnamed : params.raw "login_state" = some state)
    (hloaded : (⟨.store (.getLoginState state), .ok payload⟩ : ServerEvent) ∈ tr)
    (hcsrf : ConsentGate.validCsrf config.host payload (params.raw "csrf_token") = true)
    (hsubject : payload.str "subject" = some subject) (hresolved : Resolved tr client)
    (hnames : Names request tr state) (htake : Silent Op.takesLogin tr)
    (hfirst : Silent Op.storesCode tr) :
    Spec (Permit config request) (fun _ _ => True) tr
      (AuthorizePlug.decide config params state payload client subject) := by
  unfold AuthorizePlug.decide
  split
  · rename_i happrove
    refine spec_bind.mpr ((record_spec ?_).mono fun tr₁ _ hq => ?_)
    · intro tr' consent hsub hs
      exact ⟨params, state, payload, hendpoint, happrove, hnamed, hsub hloaded, hcsrf,
        by rw [hs]; exact hsubject⟩
    · refine issueCode_spec (hresolved.mono hq.sub) (hnames.mono hq.sub)
        (hq.silent (fun _ h => (minor_kinds h).2.2.2.2.1) htake)
        (hq.silent (fun _ h => (minor_kinds h).2.2.1) hfirst) ?_
      intro tr' record hsub hs _ _
      exact .approval params payload hendpoint happrove hnamed (hsub (hq.sub hloaded)) hcsrf
        (by rw [hs]; exact hsubject)
  · exact ⟨⟨hnames, htake⟩, fun _ => trivial⟩

theorem consent_spec (hendpoint : request.endpoint = .consent params) :
    Spec (Permit config request) (fun _ _ => True) [] (consent config params) := by
  refine spec_bind.mpr (spec_checkBind.mpr ?_)
  split
  swap
  · trivial
  rename_i state hstate
  have hnamed := Params.fetch_raw hstate
  have hraw : request.endpoint.params.raw "login_state" = some state := by
    rw [hendpoint]
    exact hnamed
  refine spec_exceptBind.mpr ((loadState_spec hraw).mono fun tr r h => ?_)
  obtain ⟨answer, rfl, hanswer⟩ := h
  rcases r with e | payload
  · trivial
  obtain rfl := hanswer payload rfl
  refine spec_checkBind.mpr ?_
  split
  swap
  · trivial
  rename_i _ hcsrf
  refine spec_exceptBind.mpr ((resolveClient_spec permit_allowsClients _ _).mono fun tr r h => ?_)
  obtain ⟨hq, hresolved⟩ := h
  rcases r with e | client
  · trivial
  refine spec_checkBind.mpr ?_
  split
  swap
  · trivial
  rename_i subject hsubject
  refine decide_spec hendpoint hnamed (hq.sub (by simp)) (checkCsrf_eq hcsrf)
    (statedSubject_eq hsubject) (hresolved client rfl) (.inl hraw) ?_ ?_
  · exact hq.silent (fun _ h => (minor_kinds h).2.2.2.2.1) (by simp [Op.takesLogin])
  · exact hq.silent (fun _ h => (minor_kinds h).2.2.1) (by simp [Op.storesCode])

end AuthorizePlug

/-- What the trace of an answered request looks like. -/
def Finished (request : Request) (tr : List ServerEvent) : Prop :=
  ∀ authorization params, request.endpoint = .token authorization params → Settled tr

/-- Every handler issues its operations under `Permit`, and a token request leaves
a settled trace. -/
theorem Deployment.handler_spec (D : Deployment) (request : Request) :
    Spec (Permit D.config request) (fun tr _ => Finished request tr) [] (D.handler request) := by
  unfold Deployment.handler
  rcases hendpoint : request.endpoint with params | params | ⟨authorization, params⟩ |
    ⟨authorization, params⟩
  · refine spec_map.mpr ((AuthorizePlug.authorize_spec hendpoint).mono fun tr _ _ => ?_)
    intro authorization' params' h
    rw [hendpoint] at h
    cases h
  · refine spec_map.mpr ((AuthorizePlug.consent_spec hendpoint).mono fun tr _ _ => ?_)
    intro authorization' params' h
    rw [hendpoint] at h
    cases h
  · exact spec_map.mpr ((TokenPlug.serve_spec hendpoint).mono fun tr _ h _ _ _ => h)
  · refine spec_map.mpr ((RevokePlug.serve_spec hendpoint).mono fun tr _ _ => ?_)
    intro authorization' params' h
    rw [hendpoint] at h
    cases h

end Specs

end NoizuMcp.Auth
