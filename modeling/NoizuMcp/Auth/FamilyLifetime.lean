import NoizuMcp.Auth.FamilyRuns
import NoizuMcp.Auth.StoreEcto

/-!
# The lifetime of a token family

`family_expires_at` is an absolute ceiling that rotation cannot extend. The
Postgres adapter claims a row for rotation only before it; the in-memory adapter
looks at the token's own expiry alone, and a token minted shortly before the
ceiling outlives it (`deadline_outlived`). So a refresh grant presented after the
ceiling yields nothing on Postgres, and in memory when the presented token expires
no later than its family (`family_lifetime_hard`).
-/

set_option autoImplicit false

namespace NoizuMcp.Auth

open Foundation Protocol

/-- A server over the Postgres store. -/
def Deployment.ecto (config : Config) (subjectOf : Nat → String) (forward : Bool) :
    Deployment where
  config := config
  adapter := StoreEcto.adapter config.host.tokenHash config.trackAccessTokens
  subjectOf := subjectOf
  forward := forward

/-! ## What a refresh grant yields, over any store -/

/-- A refresh grant that presents the token. -/
structure RefreshGrant (request : Request) (token : String) : Prop where
  endpoint : ∃ authorization params, request.endpoint = .token authorization params
  grant : request.endpoint.params.raw "grant_type" = some "refresh_token"
  presented : request.endpoint.params.raw "refresh_token" = some token

/-- The event makes a refresh token or an access token. -/
def makesToken : ServerEvent → Bool
  | ⟨.store (.putRefreshToken _), .ok _⟩ => true
  | ⟨.store (.rotateRefreshToken _ _), .ok _⟩ => true
  | ⟨.sign _, _⟩ => true
  | _ => false

section AnyStore

variable {D : Deployment} {p : D.Server} {i : Nat} {request : Request} {token : String}

/-- Request `i` has been given a new refresh token or access token. -/
def Yields (p : D.Server) (i : Nat) : Prop := ∃ e, (i, e) ∈ p.log ∧ makesToken e = true

section

variable (hgrant : RefreshGrant request token) (hc : Service.Coherent D.service p)
  (hserves : p.Serves i request)

include hgrant hc hserves

/-- A refresh grant redeems no code. -/
theorem RefreshGrant.no_code {code : String} {record : AuthorizationCode} :
    (i, ⟨.store (.takeAuthorizationCode code), .ok record⟩) ∉ p.log := by
  intro he
  obtain ⟨request', _, hserves', -, -, -, hcode⟩ := hc.logged (Deployment.handler_spec D) he
  obtain rfl := hserves.unique hserves'
  rw [hgrant.grant] at hcode
  simp at hcode

/-- A refresh grant whose token is not rotated yields nothing. -/
theorem RefreshGrant.not_yields (hnone : ∀ new old,
      (i, ⟨.store (.rotateRefreshToken token new), .ok old⟩) ∉ p.log) :
    ¬ Yields p i := by
  -- whatever token a rotation names, it is the presented one
  have hrotated : ∀ presented new old,
      (i, ⟨.store (.rotateRefreshToken presented new), .ok old⟩) ∉ p.log := by
    intro presented new old he
    obtain ⟨request', _, hserves', -, hrotates⟩ := hc.logged (Deployment.handler_spec D) he
    obtain rfl := hserves.unique hserves'
    have hnamed := Rotates.named hrotates
    rw [hgrant.presented] at hnamed
    cases hnamed
    exact hnone new old he
  rintro ⟨e, he, hmakes⟩
  obtain ⟨request', before, hserves', hsub, hpermit⟩ := hc.logged (Deployment.handler_spec D) he
  unfold makesToken at hmakes
  split at hmakes
  · obtain ⟨code, source, htook, -⟩ := MintsFirst.code hpermit
    exact hgrant.no_code hc hserves (hsub _ htook)
  · exact hrotated _ _ _ he
  · obtain ⟨scope, -, ⟨code, source, htook, -⟩ | ⟨presented, new, old, -, hrot, -⟩⟩ := hpermit
    · exact hgrant.no_code hc hserves (hsub _ htook)
    · exact hrotated presented new old (hsub _ hrot)
  · cases hmakes

end

/-- Request `i` is a refresh grant that was presented after `deadline`, the end of
its token's family, and the clock has not gone back behind the deadline since. `row`
is what the store holds for the token when the request arrives. -/
structure LateGrant (rowOf : D.adapter.State → String → Option RefreshToken) (row : RefreshToken)
    (deadline : DateTime) (i : Nat) (p : D.Server) : Prop where
  run : ∃ before arrived request token, D.Reachable before ∧
    D.service.step before (.arrive request) = some arrived ∧ i = before.threads.length ∧
    RefreshGrant request token ∧ rowOf before.world.store token = some row ∧
    D.service.ReachUnder (fun x _ => deadline < x.world.clock) arrived p
  family : row.familyExpiresAt = some deadline

/-- What a store does to the rows of refresh tokens: it only ages them, and it
rotates a token only if its row passes the guard. -/
structure Guards (D : Deployment) (rowOf : D.adapter.State → String → Option RefreshToken)
    (guard : DateTime → RefreshToken → Prop) : Prop where
  keeps : ∀ {x y : D.Server} {a token row}, D.Reachable x → D.service.step x a = some y →
    rowOf x.world.store token = some row →
    ∃ row', rowOf y.world.store token = some row' ∧ row.Ages row'
  guarded : ∀ {x y : D.Server} {a i token new old}, D.Reachable x → D.service.step x a = some y →
    y.log = x.log ++ [(i, ⟨.store (.rotateRefreshToken token new), .ok old⟩)] →
    ∃ row, rowOf x.world.store token = some row ∧ guard x.world.clock row

variable {rowOf : D.adapter.State → String → Option RefreshToken}
  {guard : DateTime → RefreshToken → Prop} {row : RefreshToken} {deadline : DateTime}

/-- A late grant yields nothing where no aged row passes the guard after the
deadline. -/
theorem LateGrant.not_yields (h : LateGrant rowOf row deadline i p) (hD : Guards D rowOf guard)
    (hlate : ∀ row' now, row.Ages row' → deadline < now → ¬ guard now row') : ¬ Yields p i := by
  obtain ⟨before, arrived, request, token, hreach, harrive, rfl, hgrant, hrow, hrun⟩ := h.run
  have harrived : D.Reachable arrived := hreach.trans (.single ⟨_, trivial, harrive⟩)
  have hinv : D.Reachable p ∧ p.Serves before.threads.length request ∧
      (∃ row', rowOf p.world.store token = some row' ∧ row.Ages row') ∧
      ∀ new old, (before.threads.length,
        ⟨.store (.rotateRefreshToken token new), .ok old⟩) ∉ p.log := by
    refine hrun.invariant (fun x => D.Reachable x ∧ x.Serves before.threads.length request ∧
      (∃ row', rowOf x.world.store token = some row' ∧ row.Ages row') ∧
      ∀ new old, (before.threads.length,
        ⟨.store (.rotateRefreshToken token new), .ok old⟩) ∉ x.log) ?_ ?_
    · rintro x a y ⟨hx, hserves, ⟨row', hrow', hages⟩, hnone⟩ hclock hs
      obtain ⟨row'', hrow'', hages'⟩ := hD.keeps hx hs hrow'
      refine ⟨hx.trans (.single ⟨a, trivial, hs⟩), Service.step_serves hs hserves,
        ⟨row'', hrow'', hages.trans hages'⟩, fun new old he => ?_⟩
      rcases Service.step_log hs with hlog | ⟨last, hlog⟩
      · exact hnone new old (hlog ▸ he)
      · rw [hlog] at he
        rcases List.mem_append.mp he with he | he
        · exact hnone new old he
        · obtain ⟨row₁, hrow₁, hguard⟩ :=
            hD.guarded hx hs (hlog.trans (by rw [List.mem_singleton.mp he]))
          rw [hrow'] at hrow₁
          cases hrow₁
          exact hlate row' _ hages hclock hguard
    · -- a request has no trace when it arrives
      have hcoherent := (hreach.choose_spec).coherent
      obtain ⟨request', ha, -, rfl⟩ | ⟨_, _, _, _, _, _, _, ha, -⟩ | ⟨_, _, ha, -⟩ :=
        Service.step_cases harrive
      · cases ha
        refine ⟨harrived, Pool.serves_arrive.mpr (.inr ⟨rfl, rfl⟩), ⟨row, hrow, .refl row⟩, ?_⟩
        intro new old he
        exact absurd (hcoherent.arrived _ he) (Nat.lt_irrefl _)
      · cases ha
      · cases ha
  obtain ⟨hreachable, hserves, -, hnone⟩ := hinv
  exact hgrant.not_yields (hreachable.choose_spec).coherent hserves hnone

end AnyStore

/-! ## The in-memory store -/

namespace StoreEts

/-- The row of a token. -/
def rowOf (tokenHash : String → String) (s : StoreEts) (token : String) : Option RefreshToken :=
  s.refreshTokens.lookup (tokenHash token)

end StoreEts

section Ets

variable {config : Config} {subjectOf : Nat → String} {forward : Bool}

open EtsRuns in

/-- In memory a token rotates while its own expiry is ahead. -/
theorem ets_guards : Guards (Deployment.ets config subjectOf forward)
    (StoreEts.rowOf config.host.tokenHash) fun now row => expired now row.expiresAt = false where
  keeps := by
    intro x y a token row hx hs hrow
    obtain ⟨-, hlater⟩ := later_of_reach (sound_of_reachable hx) (.single ⟨a, trivial, hs⟩)
    exact hlater.grown.refresh hrow
  guarded := by
    intro x y a i token new old hx hs hlog
    rcases step_cases (sound_of_reachable hx).coherent hs with ⟨j, request, e, -, hran⟩ | ⟨-, h⟩
    · have hlast := List.append_cancel_left (hran.log.symm.trans hlog)
      cases hlast
      have heffect := hran.refresh
      generalize (store y).refreshTokens = t' at heffect
      cases heffect with
      | rotate _ found _ unexpired => exact ⟨old, found, unexpired⟩
      | same unchanged => cases unchanged
    · rw [h.log] at hlog
      simp at hlog

end Ets

/-! ## The Postgres store -/

namespace StoreEcto

variable {tokenHash : String → String} {now : DateTime} {fresh : String} {k : String}
  {row : RefreshToken}

/-- The row of a token. -/
def rowOf (tokenHash : String → String) (s : StoreEcto) (token : String) : Option RefreshToken :=
  s.refreshTokens.lookup (tokenHash token)

theorem revokeRow_ages (condition : RefreshToken → Bool) (row : RefreshToken) :
    row.Ages (revokeRow now condition row) := by
  unfold revokeRow
  split
  · exact ⟨rfl, by simp, fun _ => ⟨rfl, rfl⟩⟩
  · exact .refl row

variable {s : StoreEcto} {oldToken : String}

/-- An insert adds a row under a hash that had none. -/
theorem insertRefresh_keeps {ρ : Type} {token new : RefreshToken} {s' : StoreEcto}
    (h : insertRefresh (ρ := ρ) tokenHash now fresh token s = .ok (new, s'))
    (hrow : s.refreshTokens.lookup k = some row) : s'.refreshTokens.lookup k = some row := by
  unfold insertRefresh at h
  split at h
  · split at h
    · rename_i hfree
      cases h
      simp only [Bool.and_eq_true, Option.isNone_iff_eq_none] at hfree
      rw [Table.lookup_insert_ite, if_neg]
      · exact hrow
      · rintro rfl
        rw [hfree.1.1.2] at hrow
        cases hrow
    · cases h
  · cases h

theorem rotateRefreshToken_ages {newToken : RefreshToken}
    (hrow : s.refreshTokens.lookup k = some row) :
    ∃ row', (rotateRefreshToken tokenHash now fresh oldToken newToken s).2.refreshTokens.lookup k =
      some row' ∧ row.Ages row' := by
  unfold rotateRefreshToken
  split
  · exact ⟨row, hrow, .refl row⟩
  · rename_i old hold
    split
    · rename_i hrotatable
      have hunrotated : old.rotatedAt = none := by
        simp only [rotatable, Bool.and_eq_true, Option.isNone_iff_eq_none] at hrotatable
        exact hrotatable.1.1.1
      dsimp only
      split
      · rename_i new s' hinsert
        show ∃ row', (s'.refreshTokens.insert (tokenHash oldToken) _).lookup k = some row' ∧ _
        by_cases hk : k = tokenHash oldToken
        · -- the claimed row is the presented one
          subst hk
          rw [hrow] at hold
          cases hold
          refine ⟨_, AList.lookup_insert _, rfl, fun h => h, fun h => absurd hunrotated h⟩
        · refine ⟨row, ?_, .refl row⟩
          rw [Table.lookup_insert_ite, if_neg hk]
          refine insertRefresh_keeps hinsert ?_
          show (s.refreshTokens.insert (tokenHash oldToken) _).lookup k = some row
          rw [Table.lookup_insert_ite, if_neg hk]
          exact hrow
      · exact ⟨row, hrow, .refl row⟩
    · split <;> exact ⟨row, hrow, .refl row⟩

/-- Every callback leaves the rows of refresh tokens in place and only ages them. -/
theorem perform_ages {track : Bool} (call : StoreCall)
    (hrow : s.refreshTokens.lookup k = some row) :
    ∃ row', (perform tokenHash now track fresh call s).2.refreshTokens.lookup k = some row' ∧
      row.Ages row' := by
  have hsame : ∀ {s' : StoreEcto}, s'.refreshTokens = s.refreshTokens →
      ∃ row', s'.refreshTokens.lookup k = some row' ∧ row.Ages row' := by
    intro s' heq
    exact ⟨row, heq ▸ hrow, .refl row⟩
  have hrevoke : ∀ condition, ∃ row',
      (revokeWhere now condition s).refreshTokens.lookup k = some row' ∧ row.Ages row' := by
    intro condition
    refine ⟨revokeRow now condition row, ?_, revokeRow_ages condition row⟩
    rw [revokeWhere, Table.lookup_mapRows, hrow]
    rfl
  cases call with
  | putRefreshToken =>
    simp only [perform, putRefreshToken]
    split
    · exact ⟨row, insertRefresh_keeps ‹_› hrow, .refl row⟩
    · exact hsame rfl
  | rotateRefreshToken => exact rotateRefreshToken_ages hrow
  | revokeRefreshToken token =>
    simp only [perform, revokeRefreshToken]
    split
    · rename_i found hfound
      by_cases hk : k = tokenHash token
      · subst hk
        rw [hrow] at hfound
        cases hfound
        exact ⟨_, AList.lookup_insert _, revokeRow_ages _ row⟩
      · refine ⟨row, ?_, .refl row⟩
        rw [Table.lookup_insert_ite, if_neg hk]
        exact hrow
    · exact hsame rfl
  | revokeRefreshFamily =>
    simp only [perform, revokeRefreshFamily]
    split
    · exact hsame rfl
    · exact hrevoke _
  | revokeSubjectTokens =>
    simp only [perform, revokeSubjectTokens]
    split
    · exact hrevoke _
    · exact hrevoke _
  | getClient _ | putLoginState _ _ _ | getLoginState _ | getRefreshToken _ | getConsent _ _
  | revokeConsent _ _ | accessTokenRevoked => exact hsame rfl
  | putClient _ | updateLoginState _ _ | takeLoginState _ | putAuthorizationCode _
  | takeAuthorizationCode _ | bindAuthorizationCodeFamily _ _ | putConsent _ | putAccessToken _
  | revokeAccessToken _ | claimAssertionJti =>
    simp only [perform, putClient, updateLoginState, takeLoginState, putAuthorizationCode,
      takeAuthorizationCode, bindAuthorizationCodeFamily, putConsent, putAccessToken,
      revokeAccessToken, claimAssertionJti]
    repeat' split
    all_goals exact hsame rfl

theorem rotateRefreshToken_ok {newToken old : RefreshToken}
    (h : (rotateRefreshToken tokenHash now fresh oldToken newToken s).1 = .ok old) :
    ∃ row, s.refreshTokens.lookup (tokenHash oldToken) = some row ∧ rotatable now row = true := by
  unfold rotateRefreshToken at h
  split at h
  · cases h
  · rename_i row hrow
    split at h
    · exact ⟨row, hrow, ‹_›⟩
    · split at h <;> cases h

end StoreEcto

section Ecto

variable {config : Config} {subjectOf : Nat → String} {forward : Bool}

/-- On Postgres a token rotates while its own expiry and its family's are ahead. -/
theorem ecto_guards : Guards (Deployment.ecto config subjectOf forward)
    (StoreEcto.rowOf config.host.tokenHash) fun now row => StoreEcto.rotatable now row = true where
  keeps := by
    intro x y a token row hx hs hrow
    rcases Service.step_cases hs with ⟨_, -, -, rfl⟩ |
        ⟨i, choice, _, op, _, r, w, -, -, hexec, rfl⟩ |
      ⟨m, w, -, hmove, rfl⟩
    · exact ⟨row, hrow, .refl row⟩
    · replace hexec : Deployment.exec x i op choice = some (r, w) := hexec
      cases op with
      | store call =>
        cases hexec
        exact StoreEcto.perform_ages call hrow
      | _ =>
        obtain rfl := Deployment.exec_world hexec (by simp)
        exact ⟨row, hrow, .refl row⟩
    · cases m with
      | tick =>
        simp only [Deployment.service, Deployment.moves] at hmove
        split at hmove
        · cases hmove
        · cases hmove
          exact ⟨row, hrow, .refl row⟩
      | register client =>
        cases hmove
        exact StoreEcto.perform_ages (.putClient client) hrow
  guarded := by
    intro x y a i token new old hx hs hlog
    rcases Service.step_cases hs with ⟨_, -, -, rfl⟩ |
        ⟨j, choice, _, op, _, r, w, -, -, hexec, rfl⟩ |
      ⟨m, w, -, -, rfl⟩
    · simp at hlog
    · cases List.append_cancel_left hlog
      exact StoreEcto.rotateRefreshToken_ok (congrArg Prod.fst (Option.some.inj hexec))
    · simp at hlog

end Ecto

/-! ## The deadline -/

/-- The token expires no later than its family. -/
def RefreshToken.withinFamily (row : RefreshToken) : Bool :=
  match row.expiresAt, row.familyExpiresAt with
  | some own, some family => decide (own ≤ family)
  | _, _ => false

/-- A refresh grant presented after its family's end yields nothing: on Postgres for
every token, in memory for a token that expires no later than its family. -/
theorem family_lifetime_hard (config : Config) (subjectOf : Nat → String) (forward : Bool)
    (row : RefreshToken) (deadline : DateTime) (i : Nat) :
    (∀ p : (Deployment.ets config subjectOf forward).Server,
      LateGrant (StoreEts.rowOf config.host.tokenHash) row deadline i p →
      row.withinFamily = true → ¬ Yields p i) ∧
    ∀ p : (Deployment.ecto config subjectOf forward).Server,
      LateGrant (StoreEcto.rowOf config.host.tokenHash) row deadline i p → ¬ Yields p i := by
  constructor
  · intro p h hwithin
    refine h.not_yields ets_guards fun row' now hages hlate hunexpired => ?_
    have hexpires : row'.expiresAt = row.expiresAt :=
      (congrArg RefreshToken.expiresAt hages.granted :)
    unfold RefreshToken.withinFamily at hwithin
    rw [h.family] at hwithin
    rw [hexpires] at hunexpired
    cases hown : row.expiresAt with
    | none => simp [hown] at hwithin
    | some own =>
      simp only [hown, decide_eq_true_eq] at hwithin
      have hexpired : expired now (some own) = true :=
        expired_some.mpr (Int.le_trans hwithin (Int.le_of_lt hlate))
      rw [hown, hexpired] at hunexpired
      cases hunexpired
  · intro p h
    refine h.not_yields ecto_guards fun row' now hages hlate hrotatable => ?_
    have hfamily : row'.familyExpiresAt = some deadline :=
      (congrArg RefreshToken.familyExpiresAt hages.granted :).trans h.family
    simp only [StoreEcto.rotatable, hfamily, StoreEcto.after, Option.isNone_some, Bool.false_or,
      Bool.and_eq_true, decide_eq_true_eq] at hrotatable
    exact absurd hrotatable.2 (Int.not_lt.mpr (Int.le_of_lt hlate))

/-! ### Runs around the deadline -/

section Runs

variable {D : Deployment}

/-- A late grant as a schedule: run up to the presentation, let the request arrive,
and run on with the clock behind the deadline. -/
def lateRun (D : Deployment) (before : List (Action Request Choice Move)) (request : Request)
    (after : List (Action Request Choice Move)) (deadline : DateTime) :
    Option (D.Server × D.Server) :=
  (D.service.runs (D.initial 0) before).bind fun p₀ =>
    (D.service.step p₀ (.arrive request)).bind fun p₁ =>
      (D.service.runsIf (fun x _ => decide (deadline < x.world.clock)) p₁ after).map fun p =>
        (p₀, p)

theorem lateGrant_of_lateRun {rowOf : D.adapter.State → String → Option RefreshToken}
    {before after : List (Action Request Choice Move)} {request : Request} {token : String}
    {row : RefreshToken} {deadline : DateTime} {p₀ p : D.Server}
    (h : lateRun D before request after deadline = some (p₀, p))
    (hgrant : RefreshGrant request token) (hrow : rowOf p₀.world.store token = some row)
    (hfamily : row.familyExpiresAt = some deadline) :
    LateGrant rowOf row deadline p₀.threads.length p := by
  obtain ⟨p₀', hbefore, h⟩ := Option.bind_eq_some_iff.mp h
  obtain ⟨p₁, harrive, h⟩ := Option.bind_eq_some_iff.mp h
  obtain ⟨p', hafter, heq⟩ := Option.map_eq_some_iff.mp h
  cases heq
  have hunder := Service.reachUnder_of_runsIf hafter
  simp only [decide_eq_true_eq] at hunder
  exact ⟨⟨p₀, p₁, request, token, ⟨0, Service.reach_of_runs hbefore⟩, harrive, rfl, hgrant, hrow,
    hunder⟩, hfamily⟩

theorem Sample.refreshGrant (token : String) :
    RefreshGrant (Sample.refreshRequest token) token := by
  refine ⟨⟨_, _, rfl⟩, ?_, ?_⟩ <;>
    simp [Sample.refreshRequest, Endpoint.params, Params.raw, Sample.params]

/-- The login and the redemption of the sample with `uuid` ids, then the clock at
the end of the family and past it. -/
def pastDeadline : List (Action Request Choice Move) :=
  let family := "00000000-0000-4000-8000-000000000001"
  let id := "00000000-0000-4000-8000-000000000002"
  [.move (.register Sample.client), .arrive (Sample.authorizeRequest 0)] ++
    Sample.steps 0 ["", "state-1", "csrf-1", ""] ++ [.run 0 { upstream := .ok "" }] ++
    Sample.steps 0 ["", "", "code-1", family, "", "", ""] ++
    [.arrive (Sample.codeRequest "code-1")] ++
    Sample.steps 1 ["", "", "", "jti-1", "", "token-1", "", id, ""] ++
    [.move (.tick 10001000000)]

/-- The presented token is read as not usable, and the probe finds nothing either. -/
def refusedGrant : List (Action Request Choice Move) :=
  Sample.steps 2 ["", "", "probe", "probe-family", "", ""]

theorem family_lifetime_hard_sample :
    (∃ (p : (Deployment.ets Sample.config Sample.subjectOf true).Server) (row : RefreshToken),
      LateGrant (StoreEts.rowOf Sample.config.host.tokenHash) row 10000000000 2 p ∧
      row.withinFamily = true ∧ ¬ Yields p 2) ∧
    ∃ (p : (Deployment.ecto Sample.config Sample.subjectOf true).Server) (row : RefreshToken),
      LateGrant (StoreEcto.rowOf Sample.config.host.tokenHash) row 10000000000 2 p ∧
      ¬ Yields p 2 := by
  constructor
  · have hrun : ((lateRun (Deployment.ets Sample.config Sample.subjectOf true) pastDeadline
        (Sample.refreshRequest "token-1") refusedGrant 10000000000).bind fun out =>
          (StoreEts.rowOf Sample.config.host.tokenHash out.1.world.store "token-1").map fun row =>
            (out.1.threads.length, row.familyExpiresAt, row.withinFamily)) =
        some (2, some 10000000000, true) := by decide +kernel
    obtain ⟨⟨p₀, p⟩, hlate, h⟩ := Option.bind_eq_some_iff.mp hrun
    obtain ⟨row, hrow, hobs⟩ := Option.map_eq_some_iff.mp h
    simp only [Prod.mk.injEq] at hobs
    have hgrant := lateGrant_of_lateRun hlate (Sample.refreshGrant _) hrow hobs.2.1
    rw [hobs.1] at hgrant
    exact ⟨p, row, hgrant, hobs.2.2,
      (family_lifetime_hard _ _ _ row _ 2).1 p hgrant hobs.2.2⟩
  · have hrun : ((lateRun (Deployment.ecto Sample.config Sample.subjectOf true) pastDeadline
        (Sample.refreshRequest "token-1") refusedGrant 10000000000).bind fun out =>
          (StoreEcto.rowOf Sample.config.host.tokenHash out.1.world.store "token-1").map fun row =>
            (out.1.threads.length, row.familyExpiresAt)) = some (2, some 10000000000) := by
      decide +kernel
    obtain ⟨⟨p₀, p⟩, hlate, h⟩ := Option.bind_eq_some_iff.mp hrun
    obtain ⟨row, hrow, hobs⟩ := Option.map_eq_some_iff.mp h
    simp only [Prod.mk.injEq] at hobs
    have hgrant := lateGrant_of_lateRun hlate (Sample.refreshGrant _) hrow hobs.2
    rw [hobs.1] at hgrant
    exact ⟨p, row, hgrant, (family_lifetime_hard _ _ _ row _ 2).2 p hgrant⟩

/-- The sample server with families that end after 1500 seconds. -/
def shortFamilies : Config := { Sample.config with refreshFamilyTtl := some 1500 }

/-- The sample's first token is rotated after 900 seconds; after 1600 the new one,
which has 300 seconds left, is presented. -/
def beforeOutliving : List (Action Request Choice Move) :=
  Sample.redemption ++ [.move (.tick 900000000), .arrive (Sample.refreshRequest "token-1")] ++
    Sample.steps 2 ["", "", "token-2", "", "id-2", "", "", "jti-2", ""] ++
    [.move (.tick 1600000000)]

/-- In memory a family is refreshed after its end. -/
theorem deadline_outlived :
    ∃ (p : (Deployment.ets shortFamilies Sample.subjectOf true).Server) (row : RefreshToken),
      LateGrant (StoreEts.rowOf shortFamilies.host.tokenHash) row 1500000000 3 p ∧ Yields p 3 := by
  have hrun : ((lateRun (Deployment.ets shortFamilies Sample.subjectOf true) beforeOutliving
      (Sample.refreshRequest "token-2")
      (Sample.steps 3 ["", "", "token-3", "", "id-3", "", "", "jti-3", ""]) 1500000000).bind
        fun out => (StoreEts.rowOf shortFamilies.host.tokenHash out.1.world.store "token-2").map
          fun row => (out.1.threads.length, row.familyExpiresAt,
            out.2.log.any fun x => x.1 == 3 && makesToken x.2)) =
      some (3, some 1500000000, true) := by decide +kernel
  obtain ⟨⟨p₀, p⟩, hlate, h⟩ := Option.bind_eq_some_iff.mp hrun
  obtain ⟨row, hrow, hobs⟩ := Option.map_eq_some_iff.mp h
  simp only [Prod.mk.injEq] at hobs
  have hgrant := lateGrant_of_lateRun hlate (Sample.refreshGrant _) hrow hobs.2.1
  rw [hobs.1] at hgrant
  obtain ⟨⟨i, e⟩, he, hmakes⟩ := List.any_eq_true.mp hobs.2.2
  simp only [Bool.and_eq_true, beq_iff_eq] at hmakes
  obtain ⟨rfl, hmakes⟩ := hmakes
  exact ⟨p, row, hgrant, e, he, hmakes⟩

end Runs

end NoizuMcp.Auth
