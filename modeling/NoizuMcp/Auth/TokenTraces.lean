import NoizuMcp.Auth.Traces

/-!
# Traces of the token and revocation endpoints

Both endpoints meet `Permit`: what they put, rotate and sign follows from the
code they took or the token they read. The answered refresh request is
`Settled`, whichever way it ended.
-/

set_option autoImplicit false

namespace NoizuMcp.Auth

open Foundation Protocol

section Specs

open Prog

variable {config : Config} {request : Request}

namespace TokenPlug

variable {tr : List ServerEvent} {client : Client} {code presented : String} {params : Params}
  {existing : RefreshToken} {authorization : Option String}

theorem issue_spec {grant : Grant} {source : AuthorizationCode} (htook : TookCode tr code source)
    (hfirst : Silent Op.storesRefresh tr) (hread : Silent Op.presentsRefresh tr)
    (hclient : grant.clientId = source.clientId) (hsubject : grant.subject = source.subject)
    (hscope : grant.scope = source.scope) (hresource : grant.resource = source.resource)
    (hfamily : grant.familyId = source.refreshFamilyId) :
    Spec (Permit config request) (fun tr' _ => Silent Op.presentsRefresh tr') tr
      (issue config client grant) := by
  have hbacked : Backed tr grant.scope := .inl ⟨code, source, htook, hscope⟩
  refine spec_bind.mpr ((mintAccessToken_spec hbacked).mono fun tr₁ r₁ hq₁ => ?_)
  refine spec_bind.mpr ((trackAccessToken_spec tr₁ r₁.2 grant).mono fun tr₂ _ hq₂ => ?_)
  have hq := hq₁.trans hq₂
  split
  · refine spec_bind.mpr ((mintRefreshToken_spec tr₂ grant).mono fun tr₃ r₃ hm => ?_)
    obtain ⟨hq₃, hdrew, id, familyId, now, hid, hrecord, hfam⟩ := hm
    have hq' := hq.trans hq₃
    refine ⟨?_, fun answer => ?_⟩
    · rw [hrecord]
      refine ⟨⟨hq'.silent (fun _ h => (minor_kinds h).1) hfirst, ⟨r₃.1, rfl, hdrew⟩,
        ⟨rfl, rfl, rfl⟩⟩, ⟨id, rfl, hid⟩, code, source, hq'.sub htook, hclient, hsubject, hscope,
        hresource, ?_⟩
      rw [← hfamily]
      exact hfam
    · have hsilent := hq'.silent (fun _ h => (minor_kinds h).2.2.2.2.2) hread
      rcases answer with e | _
      all_goals exact silent_append.mpr ⟨hsilent, by simp [Op.presentsRefresh]⟩
  · exact hq.silent (fun _ h => (minor_kinds h).2.2.2.2.2) hread

theorem redeem_spec (hcarried : code ∈ request.endpoint.params.strings) (hminor : Quietly [] tr)
    (hgrant : request.endpoint.params.raw "grant_type" = some "authorization_code") :
    Spec (Permit config request) (fun tr' r => Silent Op.storesRefresh tr' ∧
      Silent Op.presentsRefresh tr' ∧ ∀ record, r = .ok record → TookCode tr' code record) tr
      (redeem code).run := by
  unfold redeem
  rw [spec_storeBind]
  refine ⟨⟨hcarried, hminor, hgrant⟩, fun answer => ?_⟩
  have hfirst : Silent Op.storesRefresh
      (tr ++ [⟨.store (.takeAuthorizationCode code), answer⟩]) := by
    simpa [Op.storesRefresh] using hminor.silent (fun _ h => (minor_kinds h).1) (silent_nil _)
  have hread : Silent Op.presentsRefresh
      (tr ++ [⟨.store (.takeAuthorizationCode code), answer⟩]) := by
    simpa [Op.presentsRefresh] using
      hminor.silent (fun _ h => (minor_kinds h).2.2.2.2.2) (silent_nil _)
  rcases answer with (_ | record | _ | _) | record
  case error.replayed =>
    rw [spec_liftBind]
    refine (revokeFamily_spec fun f hf => ?_).mono fun tr₁ _ hq => ⟨?_, ?_, by simp⟩
    · exact .replayed (List.mem_append_right _ (List.mem_singleton_self _)) hf
    · exact hq.1.silent (fun _ h => (minor_kinds h).1) hfirst
    · exact hq.1.silent (fun _ h => (minor_kinds h).2.2.2.2.2) hread
  case ok =>
    refine ⟨hfirst, hread, fun record' h => ?_⟩
    cases h
    simp [TookCode]
  all_goals exact ⟨hfirst, hread, by simp⟩

section Bindings

variable {tr : List ServerEvent} {code : String} {record : AuthorizationCode}

section

variable (htook : TookCode tr code record)

include htook

/-- A failed binding check revokes the family of the code, quietly. -/
theorem refuse_spec : Spec (Permit config request) (fun tr' _ => Quietly tr tr') tr
      (do revokeFamily record.refreshFamilyId; throw (Errors.new .invalidGrant) :
        Handler Unit).run := by
  rw [spec_liftBind]
  exact (revokeFamily_spec fun f hf => .unbound htook hf).mono fun _ _ hq => hq.1

theorem checkCodeClient_spec (client : Client) : Spec (Permit config request)
      (fun tr' r => Quietly tr tr' ∧ (r = .ok () → record.clientId = client.clientId)) tr
      (checkCodeClient record client).run := by
  unfold checkCodeClient
  split
  · rename_i h
    exact ⟨.refl tr, fun _ => h⟩
  · rw [spec_liftBind]
    exact (revokeFamily_spec fun f hf => .unbound htook hf).mono fun _ _ hq => ⟨hq.1, by simp⟩

theorem checkCodeRedirectUri_spec (params : Params) :
    Spec (Permit config request) (fun tr' _ => Quietly tr tr') tr
      (checkCodeRedirectUri record params).run := by
  unfold checkCodeRedirectUri
  split
  · exact .refl tr
  · split
    · exact .refl tr
    · exact refuse_spec htook
  · exact .refl tr

theorem checkPkce_spec (verifier : String) :
    Spec (Permit config request) (fun tr' _ => Quietly tr tr') tr
      (checkPkce config record verifier).run := by
  unfold checkPkce
  split
  · exact .refl tr
  · exact refuse_spec htook

end

end Bindings

theorem checkResource_eq {resource answer : Option String}
    (h : checkResource config resource params = .ok answer) : answer = resource := by
  unfold checkResource at h
  split at h
  · cases h
    rfl
  · split at h
    · cases h
      rfl
    · cases h
  · cases h

theorem grantAuthorizationCode_spec (hparams : request.endpoint.params = params)
    (hminor : Quietly [] tr)
    (hgrant : request.endpoint.params.raw "grant_type" = some "authorization_code") :
    Spec (Permit config request) (fun tr' _ => Settled tr') tr
      (grantAuthorizationCode config client params).run := by
  unfold grantAuthorizationCode
  have hsettled : Settled tr := (Settled.of_silent (silent_nil _)).quietly hminor
  rw [spec_checkBind]
  split
  swap
  · exact hsettled
  rename_i code hcode
  rw [spec_checkBind]
  split
  swap
  · exact hsettled
  rename_i verifier hverifier
  have hcarried : code ∈ request.endpoint.params.strings := by
    rw [hparams]
    exact Params.raw_mem_strings (Params.fetch_raw hcode)
  refine spec_exceptBind.mpr ((redeem_spec hcarried hminor hgrant).mono fun tr₁ r₁ h₁ => ?_)
  obtain ⟨hfirst₁, hread₁, htook⟩ := h₁
  have hsettled₁ := Settled.of_silent hread₁
  rcases r₁ with e | record
  · exact hsettled₁
  replace htook := htook record rfl
  refine spec_exceptBind.mpr ((checkCodeClient_spec htook client).mono fun tr₂ r₂ h₂ => ?_)
  obtain ⟨hq₂, hclient⟩ := h₂
  rcases r₂ with e | _
  · exact hsettled₁.quietly hq₂
  refine spec_exceptBind.mpr
    ((checkCodeRedirectUri_spec (hq₂.sub htook) params).mono fun tr₃ r₃ hq₃ => ?_)
  replace hq₃ := hq₂.trans hq₃
  rcases r₃ with e | _
  · exact hsettled₁.quietly hq₃
  refine spec_exceptBind.mpr ((checkPkce_spec (hq₃.sub htook) verifier).mono fun tr₄ r₄ hq₄ => ?_)
  have hq := hq₃.trans hq₄
  rcases r₄ with e | _
  · exact hsettled₁.quietly hq
  refine spec_checkBind.mpr ?_
  split
  swap
  · exact hsettled₁.quietly hq
  rename_i resource hresource
  refine spec_bind.mpr ((issue_spec (hq.sub htook) ?_ ?_ (hclient rfl).symm rfl rfl
    (checkResource_eq hresource) rfl).mono fun tr₅ _ h₅ => Settled.of_silent h₅)
  · exact hq.silent (fun _ h => (minor_kinds h).1) hfirst₁
  · exact hq.silent (fun _ h => (minor_kinds h).2.2.2.2.2) hread₁

/-! ### The refresh grant -/

section

variable (hendpoint : ∃ authorization params, request.endpoint = .token authorization params)
  (hnamed : request.endpoint.params.raw "refresh_token" = some presented)

include hendpoint hnamed

theorem detectReuse_spec
    (hmissed : MissedRefresh tr presented) (hfirst : Silent Op.storesRefresh tr)
    (honly : ∀ token, MissedRefresh tr token → token = presented) :
    Spec (Permit config request) (fun tr' r => Settled tr' ∧ ∀ existing, r ≠ .ok existing) tr
      (detectReuse presented client).run := by
  refine ⟨trivial, fun token => ⟨trivial, fun familyId => ⟨trivial, fun now => ?_⟩⟩⟩
  have hq : Quietly tr (tr ++ [⟨.generateToken, token⟩] ++ [⟨.generateId, familyId⟩] ++
      [⟨.utcNow, now⟩]) := (((Quietly.refl tr).snoc rfl).snoc rfl).snoc rfl
  have hdrew : DrewToken (tr ++ [⟨.generateToken, token⟩] ++ [⟨.generateId, familyId⟩] ++
      [⟨.utcNow, now⟩]) token := by simp [DrewToken]
  generalize tr ++ [⟨.generateToken, token⟩] ++ [⟨.generateId, familyId⟩] ++
    [⟨.utcNow, now⟩] = tr₁ at hq hdrew
  have hfirst₁ := hq.silent (fun _ h => (minor_kinds h).1) hfirst
  have honly₁ : ∀ token, MissedRefresh tr₁ token → token = presented :=
    fun token hm => honly token (hm.of_quietly hq)
  refine ⟨⟨⟨hfirst₁, ⟨token, rfl, hdrew⟩, ⟨rfl, rfl, rfl⟩⟩, hendpoint, hnamed,
    .inr ⟨hmissed.imp fun e he => hq.sub he, rfl⟩⟩, fun answer => ?_⟩
  rcases answer with (_ | old | _ | _) | old
  case error.replayed =>
    refine spec_liftBind.mpr ⟨?_, fun done => ⟨.replay hfirst₁ honly₁ done, by simp⟩⟩
    exact .reused (List.mem_append_right _ (List.mem_singleton_self _)) rfl
  all_goals exact ⟨.rotation hfirst₁ honly₁ (by simp), by simp⟩

theorem fetchRefresh_spec (hminor : Quietly [] tr) : Spec (Permit config request)
      (fun tr' r => (∀ existing, r = .ok existing → GotRefresh tr' presented existing ∧
        Silent Op.storesRefresh tr' ∧ ∀ token, ¬ MissedRefresh tr' token) ∧ Settled tr') tr
      (fetchRefresh presented client).run := by
  refine spec_storeBind.mpr ⟨⟨Params.raw_mem_strings hnamed, hminor⟩, fun answer => ?_⟩
  have hfirst : Silent Op.storesRefresh
      (tr ++ [⟨.store (.getRefreshToken presented), answer⟩]) := by
    simpa [Op.storesRefresh] using hminor.silent (fun _ h => (minor_kinds h).1) (silent_nil _)
  -- the read just made is the only one
  have honly : ∀ token, MissedRefresh
      (tr ++ [⟨.store (.getRefreshToken presented), answer⟩]) token →
      token = presented ∧ ∃ e, answer = .error e := by
    rintro token ⟨e, he⟩
    rcases List.mem_append.mp he with he | he
    · exact absurd ⟨e, he⟩ (not_missed_of_quietly hminor)
    · cases List.mem_singleton.mp he
      exact ⟨rfl, e, rfl⟩
  rcases answer with e | existing
  · exact (detectReuse_spec hendpoint hnamed ⟨e, by simp⟩ hfirst
      fun token hm => (honly token hm).1).mono fun tr' r h =>
        ⟨fun existing hr => absurd hr (h.2 existing), h.1⟩
  · have hnone : ∀ token, ¬ MissedRefresh
        (tr ++ [⟨.store (.getRefreshToken presented), .ok existing⟩]) token := by
      intro token hm
      obtain ⟨-, e, he⟩ := honly token hm
      cases he
    refine ⟨fun existing' h => ?_, fun token hm => absurd hm (hnone token), ?_⟩
    · cases h
      exact ⟨by simp [GotRefresh], hfirst, hnone⟩
    · intro token record old he
      simpa [Op.storesRefresh] using hfirst _ he

end

theorem checkRefreshClient_eq (h : checkRefreshClient existing client = .ok ()) :
    existing.clientId = client.clientId := by
  unfold checkRefreshClient at h
  split at h
  · assumption
  · cases h

theorem narrowedScope_subset {scope : List String} (h : narrowedScope params existing = .ok scope) :
    scope ⊆ existing.scope := by
  unfold narrowedScope at h
  cases hs : params.spaceList "scope" with rw [hs] at h
  | error => cases h
  | ok requested =>
    change (if requested.isEmpty then _ else _) = _ at h
    split at h
    · cases h
      exact List.Subset.refl _
    · split at h
      · rename_i hall
        cases h
        intro s hmem
        simpa using List.all_eq_true.mp hall s hmem
      · cases h

theorem rotate_spec {record : RefreshToken} (hrotates : Rotates request tr presented record)
    (hnone : ∀ token, ¬ MissedRefresh tr token) :
    Spec (Permit config request)
      (fun tr' r => tr ⊆ tr' ∧ Settled tr' ∧
        ∀ old, r = .ok old → RotatedTo tr' presented record old)
      tr (rotate presented record).run := by
  refine spec_storeBind.mpr ⟨hrotates, fun answer => ?_⟩
  have hsub : tr ⊆ tr ++ [⟨.store (.rotateRefreshToken presented record), answer⟩] :=
    List.subset_append_left _ _
  have honly : ∀ token, MissedRefresh tr token → token = presented :=
    fun token hm => absurd hm (hnone token)
  rcases answer with (_ | old | _ | _) | old
  case error.replayed =>
    refine spec_liftBind.mpr ⟨?_, fun done => ⟨?_, .replay hrotates.first honly done, by simp⟩⟩
    · exact .reused (List.mem_append_right _ (List.mem_singleton_self _)) rfl
    · exact List.Subset.trans hsub (List.subset_append_left _ _)
  case ok =>
    refine ⟨hsub, .rotation hrotates.first honly (by simp), fun old' h => ?_⟩
    cases h
    simp [RotatedTo]
  all_goals exact ⟨hsub, .rotation hrotates.first honly (by simp), by simp⟩

theorem grantRefreshToken_spec (hendpoint : request.endpoint = .token authorization params)
    (hminor : Quietly [] tr) :
    Spec (Permit config request) (fun tr' _ => Settled tr') tr
      (grantRefreshToken config client params).run := by
  refine spec_checkBind.mpr ?_
  split
  swap
  · exact (Settled.of_silent (silent_nil _)).quietly hminor
  rename_i presented hpresented
  have hnamed : request.endpoint.params.raw "refresh_token" = some presented := by
    rw [hendpoint]
    exact Params.fetch_raw hpresented
  refine spec_exceptBind.mpr
    ((fetchRefresh_spec ⟨_, _, hendpoint⟩ hnamed hminor).mono fun tr₁ r₁ h₁ => ?_)
  obtain ⟨hfetched, hsettled₁⟩ := h₁
  rcases r₁ with e | existing
  · exact hsettled₁
  obtain ⟨hgot, hfirst₁, hnone⟩ := hfetched existing rfl
  refine spec_checkBind.mpr ?_
  split
  swap
  · exact hsettled₁
  rename_i _ hclient
  refine spec_checkBind.mpr ?_
  split
  swap
  · exact hsettled₁
  rename_i scope hscope
  refine spec_checkBind.mpr ?_
  split
  swap
  · exact hsettled₁
  rename_i resource hresource
  refine spec_liftBind.mpr ((mintRefreshToken_spec tr₁ _).mono fun tr₂ minted hm => ?_)
  obtain ⟨hq, hdrew, id, familyId, now, hid, hrecord, -⟩ := hm
  have hnarrows : Narrows minted.2 existing := by
    rw [hrecord]
    exact ⟨narrowedScope_subset hscope, rfl, (checkRefreshClient_eq hclient).symm,
      checkResource_eq hresource⟩
  have hrotates : Rotates request tr₂ presented minted.2 := by
    refine ⟨⟨hq.silent (fun _ h => (minor_kinds h).1) hfirst₁, ⟨minted.1, ?_, hdrew⟩, ?_⟩,
      ⟨_, _, hendpoint⟩, hnamed, .inl ⟨existing, hq.sub hgot, hnarrows, id, ?_, hid⟩⟩
    · rw [hrecord]
      rfl
    · rw [hrecord]
      exact ⟨rfl, rfl, rfl⟩
    · rw [hrecord]
      rfl
  refine spec_exceptBind.mpr
    ((rotate_spec hrotates fun token hm => hnone token (hm.of_quietly hq)).mono fun tr₃ r₃ h₃ => ?_)
  obtain ⟨hsub, hsettled₃, hrotated⟩ := h₃
  rcases r₃ with e | old
  · exact hsettled₃
  have hscope' : scope = minted.2.scope := by
    rw [hrecord]
    rfl
  have hbacked : Backed tr₃ scope := .inr ⟨presented, minted.2, old, existing, hrotated old rfl,
    hsub (hq.sub hgot), hscope', narrowedScope_subset hscope⟩
  refine spec_liftBind.mpr ((mintAccessToken_spec hbacked).mono fun tr₄ r₄ hq₄ => ?_)
  refine spec_liftBind.mpr ((trackAccessToken_spec tr₄ r₄.2 _).mono fun tr₅ _ hq₅ => ?_)
  exact hsettled₃.quietly (hq₄.trans hq₅)

theorem serve_spec (hendpoint : request.endpoint = .token authorization params) :
    Spec (Permit config request) (fun tr' _ => Settled tr') []
      (serve config authorization params).run := by
  have hparams : request.endpoint.params = params := by rw [hendpoint]; rfl
  unfold serve
  split
  · exact Settled.of_silent (silent_nil _)
  refine spec_exceptBind.mpr
    ((authenticateClient_spec permit_allowsClients [] _ _).mono fun tr r hq => ?_)
  have hsettled : Settled tr := (Settled.of_silent (silent_nil _)).quietly hq
  rcases r with e | client
  · exact hsettled
  refine spec_checkBind.mpr ?_
  split
  swap
  · exact hsettled
  rename_i grantType hgrantType
  refine spec_checkBind.mpr ?_
  split
  swap
  · exact hsettled
  show Spec _ _ tr (grant config grantType client params).run
  unfold grant
  split
  · rename_i hcode
    refine grantAuthorizationCode_spec hparams hq ?_
    rw [hparams, Params.fetch_raw hgrantType, hcode]
  · split
    · exact grantRefreshToken_spec hendpoint hq
    · exact hsettled

end TokenPlug

/-! ## The revocation endpoint -/

theorem RevokePlug.revoke_spec {tr : List ServerEvent} (client : Client) {token : String}
    (hint : Option String)
    (hendpoint : ∃ authorization params, request.endpoint = .revoke authorization params)
    (hcarried : token ∈ request.endpoint.params.strings) (hminor : Quietly [] tr) :
    Spec (Permit config request) (fun _ _ => True) tr
      (RevokePlug.revoke config client token hint) := by
  have haccess : ∀ tr, Spec (Permit config request) (fun _ _ => True) tr
      (RevokePlug.revokeAccessToken config client token) := by
    intro tr
    unfold RevokePlug.revokeAccessToken
    split
    · split
      · split
        · exact ⟨trivial, fun _ => trivial⟩
        · exact trivial
      · exact trivial
    · exact trivial
  unfold RevokePlug.revoke
  split
  · exact haccess tr
  · refine ⟨⟨hcarried, hminor⟩, fun answer => ?_⟩
    rcases answer with e | record
    · exact haccess _
    · show Spec _ _ _ (if _ then _ else _)
      split
      · have hgot :
            GotRefresh (tr ++ [⟨.store (.getRefreshToken token), .ok record⟩]) token record :=
          List.mem_append_right _ (List.mem_singleton_self _)
        exact ⟨.revoked hgot rfl hendpoint, fun _ => trivial⟩
      · exact trivial

theorem RevokePlug.serve_spec {authorization : Option String} {params : Params}
    (hendpoint : request.endpoint = .revoke authorization params) :
    Spec (Permit config request) (fun _ _ => True) []
      (RevokePlug.serve config authorization params) := by
  -- what the endpoint answers to an error leaves no further trace
  have herror : ∀ (e : Errors) (tr : List ServerEvent),
      Spec (Permit config request) (fun _ _ => True) tr
        (if e.code = .invalidClient then pure (.error e) else pure (.ok ()) :
          ServerM (Except Errors Unit)) := by
    intro e tr
    split <;> trivial
  refine spec_bind.mpr (spec_exceptBind.mpr
    ((authenticateClient_spec permit_allowsClients [] _ _).mono fun tr r hq => ?_))
  rcases r with e | client
  · exact herror e tr
  refine spec_checkBind.mpr ?_
  split
  · rename_i token htoken
    have hcarried : token ∈ request.endpoint.params.strings := by
      rw [hendpoint]
      exact Params.raw_mem_strings (Params.fetch_raw htoken)
    refine spec_map.mpr
      ((RevokePlug.revoke_spec client _ ⟨_, _, hendpoint⟩ hcarried hq).mono fun tr' _ _ => ?_)
    trivial
  · exact herror _ tr

end Specs

end NoizuMcp.Auth
