import NoizuMcp.Auth.FamilyRuns

/-!
# Login states along a run

A login state is parked under a handle that its request drew, takes the subject
of each browser that logs in on it, and is consumed before a code is stored. Two
requests on one login state may both load it before either consumes it, and
`issueCode` does not look whether its take found anything: two codes for one
login. In every run in which no issuing take comes too late there is one
(`one_login_one_code`).
-/

set_option autoImplicit false

namespace NoizuMcp.Auth.EtsRuns

open Foundation Protocol

variable {config : Config} {subjectOf : Nat → String} {forward : Bool}
  {p q : Server config subjectOf forward} {i j : Nat} {request : Request} {e : ServerEvent}

/-! ## Handles -/

variable {state : String} {choice : Choice}

theorem named_mem_strings
    (h : request.endpoint.params.raw "login_state" = some state) :
    state ∈ request.endpoint.params.strings := Params.raw_mem_strings h

/-- The handle a request parks under is nobody's yet. -/
theorem Sound.fresh_handle (hp : Sound p) (h : Ran p i request e q) {other : String}
    {payload : Payload} (hparks : Parks (p.own i) state payload) {before : List ServerEvent}
    {req : Request} (hserves : p.Serves j req) (hsub : ∀ e ∈ before, (j, e) ∈ p.log)
    (hnames : Names req before other) :
    config.host.tokenHash state ≠ config.host.tokenHash other := by
  rcases hnames with hraw | ⟨payload', ttl, answer, hput⟩
  · exact hp.secrets.not_carried h (.ofToken hparks.handle) hserves (named_mem_strings hraw)
  · intro heq
    obtain ⟨_, before', -, hsub', hparks'⟩ := hp.logged (hsub _ hput)
    have hdrew : Drew p j other := ⟨_, hsub' _ (Parks.handle hparks'), rfl⟩
    obtain ⟨rfl, -⟩ := hp.secrets.distinct (.ofToken hparks.handle) hdrew heq
    cases hparks.first _ (Pool.mem_own.mpr (hsub _ hput))

/-- A login state that was consumed is gone. -/
def Consumed (p : Server config subjectOf forward) : Prop :=
  ∀ i state answer,
    (i, ⟨.store (.takeLoginState state), answer⟩) ∈ p.log →
    (store p).loginStates.lookup (config.host.tokenHash state) = none

theorem Consumed.ran (hp : Sound p) (hc : Consumed p) (h : Ran p i request e q) : Consumed q := by
  intro j state answer he
  have hpermit := h.permit
  have heffect := h.logins
  generalize (store q).loginStates = t' at heffect
  rcases h.mem_log.mp he with he | ⟨rfl, rfl⟩
  · have hgone := hc j state answer he
    obtain ⟨req, before, hserves, hsub, hnames, -⟩ := hp.logged he
    cases heffect with
    | put =>
      rw [Table.lookup_insert_ite, if_neg, hgone]
      exact (hp.fresh_handle h hpermit hserves hsub hnames).symm
    | update found =>
      rw [Table.lookup_insert_ite, if_neg, hgone]
      intro heq
      rw [← heq, hgone] at found
      cases found
    | take => rw [Table.lookup_erase_ite, hgone, ite_self]
    | same => exact hgone
  · cases heffect with
    | take => rw [Table.lookup_erase_ite, if_pos rfl]
    | same unchanged => cases unchanged

theorem Consumed.around (hc : Consumed p) (h : Around p q) : Consumed q := by
  intro i state answer he
  rw [h.logins]
  exact hc i state answer (h.log ▸ he)

/-! ## One login, one code -/

/-- The request is a denial on the consent form. -/
def denies (request : Request) : Bool :=
  match request.endpoint with
  | .consent params => params.raw "decision" != some "approve"
  | _ => false

/-- The next operation does not consume, on the way to a code, a login state that
is gone. -/
def takesLive (p : Server config subjectOf forward) : Action Request Choice Move → Bool
  | .run i _ =>
    match p.threads[i]? with
    | some (request, .call (.store (.takeLoginState state)) _) =>
      denies request || ((store p).loginStates.lookup (config.host.tokenHash state)).isSome
    | _ => true
  | _ => true

/-- The key of the login state a request consumed. -/
def takenBy (p : Server config subjectOf forward) (i : Nat) : Option String :=
  (p.own i).findSome? fun e => match e with
    | ⟨.store (.takeLoginState state), _⟩ => some (config.host.tokenHash state)
    | _ => none

/-- The requests that stored a code, one entry for each code. -/
def codeStorers (p : Server config subjectOf forward) : List Nat :=
  p.log.filterMap fun x => match x.2 with
    | ⟨.store (.putAuthorizationCode _), .ok _⟩ => some x.1
    | _ => none

/-- The login states for which a code was stored, one entry for each code. -/
def codeStates (p : Server config subjectOf forward) : List String :=
  (codeStorers p).filterMap (takenBy p)

theorem takenBy_eq {k : String} (h : takenBy p i = some k) : ∃ state answer,
    (i, ⟨.store (.takeLoginState state), answer⟩) ∈ p.log ∧
      config.host.tokenHash state = k := by
  obtain ⟨e, he, heq⟩ := List.exists_of_findSome?_eq_some h
  split at heq
  · exact ⟨_, _, Pool.mem_own.mp he, Option.some.inj heq⟩
  · cases heq

theorem mem_codeStorers (h : i ∈ codeStorers p) : ∃ record,
    (i, ⟨.store (.putAuthorizationCode record), .ok ()⟩) ∈ p.log := by
  obtain ⟨⟨j, e⟩, he, heq⟩ := List.mem_filterMap.mp h
  dsimp only at heq
  split at heq
  · cases heq
    exact ⟨_, he⟩
  · cases heq

/-- A request that stores a code is not a denial. -/
theorem Sound.storer_approves (hp : Sound p) {record : AuthorizationCode}
    (h : (i, ⟨.store (.putAuthorizationCode record), .ok ()⟩) ∈ p.log)
    (hserves : p.Serves i request) : denies request = false := by
  obtain ⟨req, before, hserves', -, hissues⟩ := hp.logged h
  obtain rfl := hserves'.unique hserves
  obtain ⟨state, client, -, -, -, hstands⟩ := IssuesCode.stands hissues
  cases hstands with
  | login _ endpoint => simp [denies, endpoint]
  | approval _ _ endpoint decision => simp [denies, endpoint, decision]

theorem codeStorers_nodup_ran (hnodup : (codeStorers p).Nodup) (h : Ran p i request e q) :
    (codeStorers q).Nodup := by
  have hpermit := h.permit
  refine h.nodup_observed hnodup fun j hj => ?_
  dsimp only at hj
  split at hj
  · cases hj
    have hissues : IssuesCode config request (p.own i) _ := hpermit
    intro hmem
    obtain ⟨record', hrecord'⟩ := mem_codeStorers hmem
    cases hissues.first _ (Pool.mem_own.mpr hrecord')
  · cases hj

/-- One request, apart from denials, consumes a login state. -/
def OneTaker (p : Server config subjectOf forward) : Prop :=
  ∀ i j state state' answer answer' req req',
    (i, ⟨.store (.takeLoginState state), answer⟩) ∈ p.log →
    (j, ⟨.store (.takeLoginState state'), answer'⟩) ∈ p.log →
    config.host.tokenHash state = config.host.tokenHash state' → p.Serves i req →
    p.Serves j req' → denies req = false → denies req' = false → i = j

/-- A live take finds its login state. -/
theorem takesLive_ran {answer : Except (StoreError Unit) Payload}
    (h : Ran p i request ⟨.store (.takeLoginState state), answer⟩ q)
    (hlive : takesLive p (.run i choice) = true) (hdenies : denies request = false) :
    (store p).loginStates.lookup (config.host.tokenHash state) ≠ none := by
  obtain ⟨k, hthread, -⟩ := h.issued
  simp only [takesLive, hthread, hdenies] at hlive
  exact Option.isSome_iff_ne_none.mp hlive

theorem OneTaker.ran (hc : Consumed p) (ho : OneTaker p) (h : Ran p i request e q)
    (hlive : takesLive p (.run i choice) = true) : OneTaker q := by
  intro i₁ i₂ state state' answer answer' req req' h₁ h₂ heq hserves hserves' hd hd'
  rw [h.serves] at hserves hserves'
  rcases h.mem_log.mp h₁ with h₁ | ⟨rfl, rfl⟩ <;> rcases h.mem_log.mp h₂ with h₂ | ⟨rfl, he⟩
  · exact ho i₁ i₂ state state' answer answer' req req' h₁ h₂ heq hserves hserves' hd hd'
  · subst he
    obtain rfl := hserves'.unique h.serves_self
    exact absurd (heq ▸ hc _ _ _ h₁) (takesLive_ran h hlive hd')
  · obtain rfl := hserves.unique h.serves_self
    exact absurd (heq ▸ hc _ _ _ h₂) (takesLive_ran h hlive hd)
  · rfl

theorem OneTaker.around (hp : Sound p) (ho : OneTaker p) (h : Around p q) : OneTaker q := by
  intro i₁ i₂ state state' answer answer' req req' h₁ h₂ heq hserves hserves' hd hd'
  rw [h.log] at h₁ h₂
  -- the requests that consumed were there before
  obtain ⟨req₁, _, hserves₁, -⟩ := hp.logged h₁
  obtain ⟨req₂, _, hserves₂, -⟩ := hp.logged h₂
  obtain rfl := hserves.unique (h.serves_mono hserves₁)
  obtain rfl := hserves'.unique (h.serves_mono hserves₂)
  exact ho i₁ i₂ state state' answer answer' req req' h₁ h₂ heq hserves₁ hserves₂ hd hd'

/-- What holds of the codes and login states when every issuing take is live. -/
structure SingleUse (p : Server config subjectOf forward) : Prop where
  consumed : Consumed p
  oneTaker : OneTaker p
  storers : (codeStorers p).Nodup

theorem singleUse_of_live {now : DateTime}
    (h : (Deployment.ets config subjectOf forward).service.ReachUnder
      (fun p a => takesLive p a = true) ((Deployment.ets config subjectOf forward).initial now) p) :
    Sound p ∧ SingleUse p := by
  refine Sound.invariant SingleUse ?_ ?_ h (.initial now) ⟨?_, ?_, List.nodup_nil⟩
  · intro x y i request e choice hx hsingle hlive hran
    exact ⟨hsingle.consumed.ran hx hran, hsingle.oneTaker.ran hsingle.consumed hran hlive,
      codeStorers_nodup_ran hsingle.storers hran⟩
  · intro x y hx hsingle haround
    refine ⟨hsingle.consumed.around haround, hsingle.oneTaker.around hx haround, ?_⟩
    rw [codeStorers, haround.log]
    exact hsingle.storers
  · intro i state answer he
    cases he
  · intro i j state state' answer answer' req req' he
    cases he

/-- In every run in which each issuing take finds its login state, at most one code
is stored for a login state. -/
theorem one_login_one_code {now : DateTime}
    (h : (Deployment.ets config subjectOf forward).service.ReachUnder
      (fun p a => takesLive p a = true) ((Deployment.ets config subjectOf forward).initial now) p) :
    (codeStates p).Nodup := by
  obtain ⟨hp, hsingle⟩ := singleUse_of_live h
  refine List.pairwise_filterMap.mpr (hsingle.storers.imp_of_mem ?_)
  intro i j hi hj hne k hk k' hk' heq
  subst heq
  obtain ⟨state, answer, htake, hkey⟩ := takenBy_eq hk
  obtain ⟨state', answer', htake', hkey'⟩ := takenBy_eq hk'
  obtain ⟨req, _, hserves, -⟩ := hp.logged htake
  obtain ⟨req', _, hserves', -⟩ := hp.logged htake'
  obtain ⟨record, hrecord⟩ := mem_codeStorers hi
  obtain ⟨record', hrecord'⟩ := mem_codeStorers hj
  exact hne (hsingle.oneTaker i j state state' answer answer' req req' htake htake'
    (hkey.trans hkey'.symm) hserves hserves' (hp.storer_approves hrecord hserves)
    (hp.storer_approves hrecord' hserves'))

/-- Party `0` starts a login and is sent away to log in; requests `1` and `2` both
come back with the handle, and request `1` loads the login state. -/
def sentAway : List (Action Request Choice Move) :=
  [.move (.register Sample.client), .arrive (Sample.authorizeRequest 0)] ++
    Sample.steps 0 ["", "state-1", "csrf-1", ""] ++
    [.run 0 { upstream := .redirect "https://host/login" },
      .arrive (Sample.resumeRequest 0 "state-1"), .arrive (Sample.resumeRequest 0 "state-1")] ++
    Sample.steps 1 ["", ""] ++ [.run 1 { upstream := .ok "" }]

/-- Request `1` consumes the login state before request `2` loads it. -/
def resumeInTurn : List (Action Request Choice Move) :=
  sentAway ++ Sample.steps 1 ["", "", "code-1", "family-1", "", "", ""] ++ Sample.steps 2 [""]

/-- The second resume comes after the login was taken, and makes no code. -/
theorem one_login_one_code_sample : ∃ p : Server Sample.config Sample.subjectOf true,
    (Deployment.ets Sample.config Sample.subjectOf true).service.runsIf takesLive
      ((Deployment.ets Sample.config Sample.subjectOf true).initial 0) resumeInTurn = some p ∧
    Deployment.isAnswered p 1 = true ∧ Deployment.isAnswered p 2 = true ∧
    codeStates p = ["state-1"] ∧ (codeStates p).Nodup := by
  have hrun : ((Deployment.ets Sample.config Sample.subjectOf true).service.runsIf takesLive
      ((Deployment.ets Sample.config Sample.subjectOf true).initial 0) resumeInTurn).map
        (fun p => (Deployment.isAnswered p 1, Deployment.isAnswered p 2, codeStates p)) =
      some (true, true, ["state-1"]) := by decide +kernel
  obtain ⟨p, hp, hobs⟩ := Option.map_eq_some_iff.mp hrun
  simp only [Prod.mk.injEq] at hobs
  obtain ⟨hfirst, hsecond, hcodes⟩ := hobs
  exact ⟨p, hp, hfirst, hsecond, hcodes, one_login_one_code (Service.reachUnder_of_runsIf hp)⟩

/-- Both requests load the login state before one consumes it. -/
def doubleResume : List (Action Request Choice Move) :=
  sentAway ++ Sample.steps 2 ["", ""] ++ [.run 2 { upstream := .ok "" }] ++
    Sample.steps 1 ["", "", "code-1", "family-1", "", "", ""] ++
    Sample.steps 2 ["", "", "code-2", "family-2", "", "", ""]

/-- Two codes are stored for one login state. -/
theorem double_resume_stores_two_codes : ∃ p : Server Sample.config Sample.subjectOf true,
    (Deployment.ets Sample.config Sample.subjectOf true).Reachable p ∧
    codeStates p = ["state-1", "state-1"] := by
  exact Sample.exists_reachable doubleResume codeStates _ (by decide +kernel)

end NoizuMcp.Auth.EtsRuns
