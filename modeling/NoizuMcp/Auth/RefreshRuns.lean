import NoizuMcp.Auth.CodeReplay

/-!
# Rotation chains and reuse

Runs over a clock that does not run backwards. A token is rotated at most once,
and only into a narrower token of the same grant; the tokens of a family are
revoked together; and a token that is presented again after its rotation brings
down the family (`refresh_reuse_detected`). No token of a chain, and no access
token minted on the way, grants more than the code it started from
(`refresh_chain_narrows`).
-/

set_option autoImplicit false

namespace NoizuMcp.Auth.EtsRuns

open Foundation

/-! ## One revocation for a family, one rotation for a token -/

section AnyClock

variable {config : Config} {subjectOf : Nat → String} {forward : Bool}
  {p q : Server config subjectOf forward} {i : Nat} {request : Request} {e : ServerEvent}

/-- The key of the token an event rotated. -/
def rotatedKey (config : Config) (e : ServerEvent) : Option String :=
  match e with
  | ⟨.store (.rotateRefreshToken presented _), .ok _⟩ => some (config.host.tokenHash presented)
  | _ => none

theorem rotatedKey_eq {k : String} (h : rotatedKey config e = some k) : ∃ presented new old,
    e = ⟨.store (.rotateRefreshToken presented new), .ok old⟩ ∧
      config.host.tokenHash presented = k := by
  unfold rotatedKey at h
  split at h
  · exact ⟨_, _, _, rfl, Option.some.inj h⟩
  · cases h

/-- The keys of the tokens rotated so far, one for each rotation. -/
def rotations (p : Server config subjectOf forward) : List String :=
  p.log.filterMap fun x => rotatedKey config x.2

theorem mem_rotations {k : String} (h : k ∈ rotations p) : ∃ i presented new old,
    (i, ⟨.store (.rotateRefreshToken presented new), .ok old⟩) ∈ p.log ∧
      config.host.tokenHash presented = k := by
  obtain ⟨⟨i, e⟩, he, hk⟩ := List.mem_filterMap.mp h
  obtain ⟨presented, new, old, rfl, hkey⟩ := rotatedKey_eq hk
  exact ⟨i, presented, new, old, he, hkey⟩

/-- A token that was rotated is not rotated again. -/
theorem Sound.rotated_once (hp : Sound p) {presented : String} {new old : RefreshToken}
    (h : Ran p i request ⟨.store (.rotateRefreshToken presented new), .ok old⟩ q) :
    config.host.tokenHash presented ∉ rotations p := by
  intro hmem
  obtain ⟨j, presented', new', old', he, hkey⟩ := mem_rotations hmem
  obtain ⟨now, fresh, value, -, ⟨r, hr, hages⟩, -⟩ := hp.memory he
  have hrotated : r.rotatedAt ≠ none := hages.stays_rotated (by simp [StoreEts.retired])
  cases hp.refreshStep h with
  | put _ _ _ _ _ _ event | revoke _ event => cases event
  | rotate _ _ _ _ _ _ _ _ found _ _ unrotated event =>
    cases event
    rw [← hkey, hr] at found
    cases found
    exact hrotated unrotated
  | same unchanged => cases unchanged

theorem rotations_nodup_ran (hp : Sound p) (hnodup : (rotations p).Nodup)
    (h : Ran p i request e q) : (rotations q).Nodup := by
  refine h.nodup_observed hnodup fun k hk => ?_
  obtain ⟨presented, new, old, rfl, rfl⟩ := rotatedKey_eq hk
  exact hp.rotated_once h

/-- The tokens of a family are revoked together. -/
def Uniform (p : Server config subjectOf forward) : Prop :=
  ∀ k r k' r', (store p).refreshTokens.lookup k = some r →
    (store p).refreshTokens.lookup k' = some r' → r'.familyId = r.familyId →
    r.revokedAt ≠ none → r'.revokedAt ≠ none

theorem Uniform.ran (hp : Sound p) (hu : Uniform p) (h : Ran p i request e q) : Uniform q := by
  intro k r k' r' hr hr' hfamily hrevoked
  cases (hp.refreshStep h).origin hr with
  | aged r₀ found step =>
    rcases step.revoked hrevoked with hrevoked₀ | rfl
    · cases (hp.refreshStep h).origin hr' with
      | aged r₀' found' step' =>
        refine step'.ages.revoked (hu k r₀ k' r₀' found found' ?_ hrevoked₀)
        rw [← step'.ages.familyId, hfamily, step.ages.familyId]
      | first _ _ _ _ mints _ _ row =>
        subst row
        have hempty := hp.family_empty mints found
        exact absurd (step.ages.familyId.symm.trans hfamily.symm) hempty
      | successor _ _ _ _ old _ _ _ found' live _ row =>
        subst row
        exact absurd live
          (hu k r₀ _ old found found' (hfamily.trans step.ages.familyId) hrevoked₀)
    · exact dead_of_revoke hp h k' r' hr' (hfamily.trans step.ages.familyId)
  | first token value fresh event hfresh raw key row
  | successor _ _ _ _ _ _ hfresh _ _ _ _ row =>
    subst row
    exact absurd hfresh.unused.2.2 hrevoked

theorem Uniform.around (hu : Uniform p) (h : Around p q) : Uniform q := by
  intro k r k' r' hr hr'
  exact hu k r k' r' (h.refresh ▸ hr) (h.refresh ▸ hr')

/-- The family of every reuse that was followed by its revocation is dead. -/
def ReuseFinal (p : Server config subjectOf forward) : Prop :=
  ∀ i token new old done,
    (i, ⟨.store (.rotateRefreshToken token new), .error (.replayed old)⟩) ∈ p.log →
    (i, ⟨.store (.revokeRefreshFamily old.familyId), done⟩) ∈ p.log →
    Dead p old.familyId

/-- A request opens with one code or one refresh token. -/
def opens : Op → Bool
  | .store (.takeAuthorizationCode _) => true
  | .store (.getRefreshToken _) => true
  | _ => false

theorem Sound.opened_once (hp : Sound p) {e₁ e₂ : ServerEvent} (h₁ : (i, e₁) ∈ p.log)
    (h₂ : (i, e₂) ∈ p.log) (ho₁ : opens e₁.op = true) (ho₂ : opens e₂.op = true) : e₁ = e₂ := by
  refine hp.coherent.unique (Deployment.handler_spec _) (B := fun op => opens op = true) ?_ h₁ h₂
    ho₁ ho₂
  intro req tr op hpermit hop e he hopens
  have hquiet : Quietly [] tr := by
    cases op with
    | store call =>
      cases call with
      | takeAuthorizationCode => exact hpermit.2.1
      | getRefreshToken => exact hpermit.2
      | _ => cases hop
    | _ => cases hop
  obtain ⟨ext, rfl, hminor⟩ := hquiet
  have hm := minor_kinds (hminor e he)
  unfold opens at hopens
  split at hopens <;> simp_all [Op.takesCode, Op.presentsRefresh]

/-- When a refresh request is told of a reuse, it has not revoked the family yet. -/
theorem Sound.not_revoked_yet (hp : Sound p) {token : String} {new : RefreshToken}
    {answer : Except (StoreError RefreshToken) RefreshToken} {family : String}
    {done : Except (StoreError Unit) Unit}
    (h : Ran p i request ⟨.store (.rotateRefreshToken token new), answer⟩ q) :
    (i, ⟨.store (.revokeRefreshFamily family), done⟩) ∉ p.log := by
  intro hrevoked
  have hrotates : Rotates request (p.own i) token new := h.permit
  -- the request has read the token it presents, so it has redeemed no code
  obtain ⟨answer', hread⟩ : ∃ answer', (i, ⟨.store (.getRefreshToken token), answer'⟩) ∈ p.log := by
    rcases hrotates.source with ⟨existing, hgot, -⟩ | ⟨⟨reason, hmissed⟩, -⟩
    · exact ⟨_, Pool.mem_own.mp hgot⟩
    · exact ⟨_, Pool.mem_own.mp hmissed⟩
  obtain ⟨req, before, hserves, hsub, hblamed⟩ := hp.logged hrevoked
  obtain rfl := hserves.unique h.serves_self
  cases (hblamed : Blamed req before family) with
  | replayed took | unbound took => cases hp.opened_once hread (hsub _ took) rfl rfl
  | reused reported => cases hrotates.first _ (Pool.mem_own.mpr (hsub _ reported))
  | revoked _ _ endpoint =>
    obtain ⟨_, _, hrevoke⟩ := endpoint
    obtain ⟨_, _, htoken⟩ := hrotates.endpoint
    rw [hrevoke] at htoken
    cases htoken

theorem ReuseFinal.ran (hp : Sound p) (hfinal : ReuseFinal p) (h : Ran p i request e q) :
    ReuseFinal q := by
  intro j token new old done hreuse hrevoked
  rcases h.mem_log.mp hrevoked with hrevoked | ⟨rfl, rfl⟩
  · rcases h.mem_log.mp hreuse with hreuse | ⟨rfl, rfl⟩
    · -- the reused token is in the family, so its first token is not put now
      obtain ⟨r, hr, hages⟩ := hp.memory hreuse
      refine (hfinal j token new old done hreuse hrevoked).ran hp h fun first he => ?_
      subst he
      have hmints : MintsFirst (p.own i) first := h.permit
      exact fun heq => hp.family_empty hmints hr (hages.familyId.trans heq.symm)
    · exact absurd hrevoked (hp.not_revoked_yet h)
  · exact dead_of_revoke hp h

theorem ReuseFinal.around (hfinal : ReuseFinal p) (h : Around p q) : ReuseFinal q := by
  intro i token new old done hreuse hrevoked
  exact (hfinal i token new old done (h.log ▸ hreuse) (h.log ▸ hrevoked)).around h

end AnyClock

/-! ## Over a clock that runs forward -/

section Forward

variable {config : Config} {subjectOf : Nat → String}
  {p q : Server config subjectOf true} {i : Nat} {request : Request} {e : ServerEvent}

/-- Revoked or expired: no rotation of it succeeds again, and none is reported. -/
def Ended (now : DateTime) (r : RefreshToken) : Prop :=
  r.revokedAt ≠ none ∨ expired now r.expiresAt = true

variable {r r' : RefreshToken} {now now' : DateTime} {token value : String}
  {P : DateTime → RefreshToken → Prop}

theorem Ended.ages (h : Ended now r) (hages : r.Ages r') : Ended now r' := by
  rcases h with hrevoked | hexpired
  · exact .inl (hages.revoked hrevoked)
  · exact .inr (hages.expiresAt ▸ hexpired)

theorem Ended.mono (h : Ended now r) (hle : now ≤ now') : Ended now' r := by
  rcases h with hrevoked | hexpired
  · exact .inl hrevoked
  · exact .inr (expired_mono hle hexpired)

theorem unusable_iff : r.usable now = false ↔ Ended now r ∨ r.rotatedAt ≠ none := by
  rw [← Bool.not_eq_true, RefreshToken.usable_iff, Ended]
  cases r.revokedAt <;> cases r.rotatedAt <;> cases expired now r.expiresAt <;> simp

theorem unusable_ages (h : r.usable now = false) (hages : r.Ages r') : r'.usable now = false := by
  rcases unusable_iff.mp h with hended | hrotated
  · exact unusable_iff.mpr (.inl (hended.ages hages))
  · exact unusable_iff.mpr (.inr (hages.stays_rotated hrotated))

theorem unusable_mono (h : r.usable now = false) (hle : now ≤ now') : r.usable now' = false := by
  rcases unusable_iff.mp h with hended | hrotated
  · exact unusable_iff.mpr (.inl (hended.mono hle))
  · exact unusable_iff.mpr (.inr hrotated)

/-- Whatever is under the value meets `P` at the present time. -/
def Under (p : Server config subjectOf true) (value : String)
    (P : DateTime → RefreshToken → Prop) : Prop :=
  ∀ r, (store p).refreshTokens.lookup (config.host.tokenHash value) = some r → P p.world.clock r

/-- Nothing new comes under a value that a request already carries. -/
theorem Under.ran (hages : ∀ {now r r'}, P now r → r.Ages r' → P now r') (hp : Sound p)
    (h : Ran p i request e q) {j : Nat} {other : Request} (hserves : p.Serves j other)
    (hcarried : value ∈ other.endpoint.params.strings) (hunder : Under p value P) :
    Under q value P := by
  intro r hr
  rw [h.clock]
  have hfresh : ∀ {record : RefreshToken} {value' : String}, FreshRefresh (p.own i) record →
      record.token = some value' →
      config.host.tokenHash value' ≠ config.host.tokenHash value := by
    intro record value' hfresh hraw
    obtain ⟨value'', hraw', hdrew⟩ := hfresh.token
    obtain rfl : value'' = value' := Option.some.inj (hraw'.symm.trans hraw)
    exact hp.secrets.not_carried h (.ofToken hdrew) hserves hcarried
  cases (hp.refreshStep h).origin hr with
  | aged r₀ found step => exact hages (hunder r₀ found) step.ages
  | first token value' fresh event hmints raw key
  | successor _ _ _ _ _ _ hmints raw _ _ key => exact absurd key (hfresh hmints.toFreshRefresh raw)

theorem Under.around (hmono : ∀ {now now' r}, P now r → now ≤ now' → P now' r) (h : Around p q)
    (hunder : Under p value P) : Under q value P := by
  intro r hr
  exact hmono (hunder r (h.refresh ▸ hr)) (h.clock rfl)

/-- A token once read as not usable is not usable. -/
def Missed (p : Server config subjectOf true) : Prop :=
  ∀ i token reason,
    (i, ⟨.store (.getRefreshToken token), .error reason⟩) ∈ p.log →
    Under p token fun now r => r.usable now = false

theorem Missed.ran (hp : Sound p) (hm : Missed p) (h : Ran p i request e q) : Missed q := by
  intro j token reason he
  rcases h.mem_log.mp he with he | ⟨rfl, rfl⟩
  · obtain ⟨req, before, hserves, -, hcarried, -⟩ := hp.logged he
    exact (hm j token reason he).ran unusable_ages hp h hserves hcarried
  · obtain ⟨fresh, hperf⟩ := h.answer _ _ rfl
    obtain ⟨hget, hstore⟩ := Prod.mk.inj hperf
    intro r hr
    rw [← hstore] at hr
    rw [h.clock]
    rcases getRefreshToken_error hget with hnone | ⟨r', hr', hunusable⟩
    · rw [hnone] at hr
      cases hr
    · rw [hr'] at hr
      cases hr
      exact hunusable

/-- A token whose rotation was refused, other than as a replay, has ended. -/
def Refused (p : Server config subjectOf true) : Prop :=
  ∀ i token new reason,
    (i, ⟨.store (.rotateRefreshToken token new), .error reason⟩) ∈ p.log →
    (∀ old, reason ≠ .replayed old) → Under p token Ended

theorem Refused.ran (hp : Sound p) (hrefused : Refused p) (h : Ran p i request e q) :
    Refused q := by
  intro j token new reason he hreason
  rcases h.mem_log.mp he with he | ⟨rfl, rfl⟩
  · obtain ⟨req, before, hserves, -, hrotates⟩ := hp.logged he
    exact (hrefused j token new reason he hreason).ran Ended.ages hp h hserves
      (Rotates.carried hrotates)
  · have hrotates : Rotates request (p.own j) token new := h.permit
    obtain ⟨value, hraw, -⟩ := hrotates.token
    obtain ⟨fresh, hperf⟩ := h.answer _ _ rfl
    obtain ⟨hstore, hrow⟩ := rotateRefreshToken_error hraw hperf
    intro r hr
    rw [hstore] at hr
    rw [h.clock]
    rcases hrow with hnone | ⟨old, hold, hcase⟩
    · rw [hnone] at hr
      cases hr
    · rw [hold] at hr
      cases hr
      rcases hcase with hrevoked | hexpired | ⟨hreplayed, -⟩
      · exact .inl hrevoked
      · exact .inr hexpired
      · exact absurd hreplayed (hreason _)

/-- Every rotation narrows the token it rotates. -/
def Narrowing (p : Server config subjectOf true) : Prop :=
  ∀ i presented new old,
    (i, ⟨.store (.rotateRefreshToken presented new), .ok old⟩) ∈ p.log →
    Narrows new old

theorem Narrowing.ran (hp : Sound p) (hm : Missed p) (hn : Narrowing p)
    (h : Ran p i request e q) : Narrowing q := by
  intro j presented new old he
  rcases h.mem_log.mp he with he | ⟨rfl, rfl⟩
  · exact hn j presented new old he
  · cases hp.refreshStep h with
    | put _ _ _ _ _ _ event | revoke _ event => cases event
    | rotate _ _ _ _ _ _ rotates _ found live unexpired unrotated event =>
      cases event
      rcases rotates.source with ⟨existing, hgot, hnarrows, -⟩ | ⟨⟨reason, hmissed⟩, -⟩
      · -- the row rotated is the row read before, aged
        obtain ⟨r, hr, hages⟩ := hp.memory (Pool.mem_own.mp hgot)
        rw [found] at hr
        cases hr
        exact ⟨hages.scope ▸ hnarrows.scope, hnarrows.subject.trans hages.subject.symm,
          hnarrows.clientId.trans hages.clientId.symm,
          hnarrows.resource.trans hages.resource.symm⟩
      · -- the probe of a token read as not usable cannot succeed
        have hunusable := hm j presented reason (Pool.mem_own.mp hmissed) old found
        rcases unusable_iff.mp hunusable with (hrevoked | hexpired) | hrotated
        · exact absurd live hrevoked
        · rw [unexpired] at hexpired
          cases hexpired
        · exact absurd unrotated hrotated
    | same unchanged => cases unchanged

/-- What holds of the refresh tokens in every state. -/
structure Lineage (p : Server config subjectOf true) : Prop where
  nodup : (rotations p).Nodup
  uniform : Uniform p
  reuseFinal : ReuseFinal p
  missed : Missed p
  refused : Refused p
  narrowing : Narrowing p

theorem Lineage.ran (hp : Sound p) (hl : Lineage p) (h : Ran p i request e q) : Lineage q where
  nodup := rotations_nodup_ran hp hl.nodup h
  uniform := hl.uniform.ran hp h
  reuseFinal := hl.reuseFinal.ran hp h
  missed := hl.missed.ran hp h
  refused := hl.refused.ran hp h
  narrowing := hl.narrowing.ran hp hl.missed h

theorem Lineage.around (hl : Lineage p) (h : Around p q) : Lineage q where
  nodup := by
    rw [rotations, h.log]
    exact hl.nodup
  uniform := hl.uniform.around h
  reuseFinal := hl.reuseFinal.around h
  missed := fun i token reason he => (hl.missed i token reason (h.log ▸ he)).around unusable_mono h
  refused := fun i token new reason he hreason =>
    (hl.refused i token new reason (h.log ▸ he) hreason).around Ended.mono h
  narrowing := fun i presented new old he => hl.narrowing i presented new old (h.log ▸ he)

theorem Lineage.initial (now : DateTime) :
    Lineage ((Deployment.ets config subjectOf true).initial now) where
  nodup := List.nodup_nil
  uniform := by
    intro k r k' r' hr
    cases hr
  reuseFinal := by
    intro i token new old done he
    cases he
  missed := by
    intro i token reason he
    cases he
  refused := by
    intro i token new reason he
    cases he
  narrowing := by
    intro i presented new old he
    cases he

theorem lineage_of_reachable (h : (Deployment.ets config subjectOf true).Reachable p) :
    Sound p ∧ Lineage p := by
  obtain ⟨now, hreach⟩ := h
  exact Sound.invariant Lineage (fun hx hl _ hran => hl.ran hx hran)
    (fun _ hl haround => hl.around haround) hreach (.initial now) (.initial now)

/-! ## Reuse -/

/-- The refresh token that request `i`, a token request, presents to the store
with its next operation. -/
def presentsNext (p : Server config subjectOf true) (i : Nat) : Option String :=
  match p.threads[i]? with
  | some (⟨_, .token _ _⟩, .call (.store (.getRefreshToken token)) _) => some token
  | some (⟨_, .token _ _⟩, .call (.store (.rotateRefreshToken token _)) _) => some token
  | _ => none

theorem presentsNext_ran (h : Ran p i request e q) (hnext : presentsNext p i = some token) :
    (∃ authorization params, request.endpoint = .token authorization params) ∧
      ((∃ answer, e = ⟨.store (.getRefreshToken token), answer⟩) ∨
        ∃ new answer, e = ⟨.store (.rotateRefreshToken token new), answer⟩) := by
  obtain ⟨k, hthread, -⟩ := h.issued
  obtain ⟨op, answer⟩ := e
  unfold presentsNext at hnext
  split at hnext
  · rename_i hthread'
    rw [hthread] at hthread'
    cases hthread'
    cases hnext
    exact ⟨⟨_, _, rfl⟩, .inl ⟨answer, rfl⟩⟩
  · rename_i hthread'
    rw [hthread] at hthread'
    cases hthread'
    cases hnext
    exact ⟨⟨_, _, rfl⟩, .inr ⟨_, answer, rfl⟩⟩
  · cases hnext

/-- A request that has not rotated a token by the time the token is rotated never
does. -/
theorem never_rotates {a : Server config subjectOf true} (hp : Sound p)
    (hr : (store p).refreshTokens.lookup (config.host.tokenHash token) = some r)
    (hrotated : r.rotatedAt ≠ none) (hnot : ∀ new old,
      (i, ⟨.store (.rotateRefreshToken token new), .ok old⟩) ∉ p.log)
    (h : (Deployment.ets config subjectOf true).service.Reach p a) (new old : RefreshToken) :
    (i, ⟨.store (.rotateRefreshToken token new), .ok old⟩) ∉ a.log := by
  refine (Sound.invariant (fun x => Later p x ∧ ∀ new old,
    (i, ⟨.store (.rotateRefreshToken token new), .ok old⟩) ∉ x.log)
    ?_ ?_ h hp ⟨.refl p, hnot⟩).2.2 new old
  · rintro x y j request e choice hx ⟨hlater, hnot⟩ _ hran
    refine ⟨hlater.ran hx hran, fun new old he => ?_⟩
    rcases hran.mem_log.mp he with he | ⟨-, rfl⟩
    · exact hnot new old he
    · obtain ⟨r', hr', hages⟩ := hlater.grown.refresh hr
      cases hx.refreshStep hran with
      | put _ _ _ _ _ _ event | revoke _ event => cases event
      | rotate _ _ _ _ _ _ _ _ found _ _ unrotated event =>
        cases event
        rw [hr'] at found
        cases found
        exact hages.stays_rotated hrotated unrotated
      | same unchanged => cases unchanged
  · rintro x y _ ⟨hlater, hnot⟩ haround
    exact ⟨hlater.around haround, fun new old he => hnot new old (haround.log ▸ he)⟩

/-- A rotated token is read as not usable. -/
theorem read_rotated {answer : Except (StoreError Unit) RefreshToken}
    (h : Ran p i request ⟨.store (.getRefreshToken token), answer⟩ q)
    (hr : (store p).refreshTokens.lookup (config.host.tokenHash token) = some r)
    (hrotated : r.rotatedAt ≠ none) : ∃ reason, answer = .error reason := by
  obtain ⟨fresh, hperf⟩ := h.answer _ _ rfl
  obtain ⟨hget, -⟩ := Prod.mk.inj hperf
  rcases answer with reason | record
  · exact ⟨reason, rfl⟩
  · obtain ⟨hrow, husable⟩ := getRefreshToken_ok hget
    rw [hr] at hrow
    cases hrow
    rw [unusable_iff.mpr (.inr hrotated)] at husable
    cases husable

/-- An answered token request is settled. -/
theorem settled_of_answered (hp : Sound p) (h : Deployment.isAnswered p i = true)
    (hserves : p.Serves i request) {authorization : Option String} {params : Params}
    (hendpoint : request.endpoint = .token authorization params) : Settled (p.own i) := by
  unfold Deployment.isAnswered at h
  split at h
  · rename_i req answer hthread
    obtain rfl := hserves.unique ⟨_, hthread⟩
    exact hp.coherent.answered (Deployment.handler_spec _) hthread authorization params hendpoint
  · cases h

/-- A request that presents a token next has not rotated it yet. -/
theorem not_rotated_yet (h : Ran p i request e q)
    (he : (∃ answer, e = ⟨.store (.getRefreshToken token), answer⟩) ∨
      ∃ new answer, e = ⟨.store (.rotateRefreshToken token new), answer⟩) (new old : RefreshToken) :
    (i, ⟨.store (.rotateRefreshToken token new), .ok old⟩) ∉ p.log := by
  intro hmem
  have hown := Pool.mem_own.mpr hmem
  rcases he with ⟨answer, rfl⟩ | ⟨new', answer, rfl⟩
  · have hquiet : Quietly [] (p.own i) := h.permit.2
    cases (hquiet.silent (fun _ h => (minor_kinds h).1) (silent_nil _)) _ hown
  · have hrotates : Rotates request (p.own i) token new' := h.permit
    cases hrotates.first _ hown

/-- The rotation of a token request that was answered brings the family down,
unless it succeeded or the token has expired. -/
theorem dead_of_rotation (hp : Sound p) (hl : Lineage p) {new : RefreshToken}
    {answer : Except (StoreError RefreshToken) RefreshToken} (hsettled : Settled (p.own i))
    (he : (i, ⟨.store (.rotateRefreshToken token new), answer⟩) ∈ p.log)
    (hfailed : ∀ old, answer ≠ .ok old)
    (hr : (store p).refreshTokens.lookup (config.host.tokenHash token) = some r)
    (hunexpired : expired p.world.clock r.expiresAt = false) : Dead p r.familyId := by
  rcases answer with reason | old
  · by_cases hreplayed : ∃ old, reason = .replayed old
    · obtain ⟨old, rfl⟩ := hreplayed
      obtain ⟨done, hdone⟩ := hsettled.punished _ _ _ (Pool.mem_own.mpr he)
      obtain ⟨r', hr', hages⟩ := hp.memory he
      rw [hr] at hr'
      cases hr'
      rw [hages.familyId]
      exact hl.reuseFinal i token new old done he (Pool.mem_own.mp hdone)
    · -- refused for another reason than reuse: the token is revoked, and the family with it
      have hended := hl.refused i token new reason he (fun old h => hreplayed ⟨old, h⟩) r hr
      rcases hended with hrevoked | hexpired
      · exact fun k r' hr' hfamily => hl.uniform _ r k r' hr hr' hfamily hrevoked
      · rw [hunexpired] at hexpired
        cases hexpired
  · exact absurd rfl (hfailed old)

/-- Every refresh token is rotated at most once. Once a token request that
presented a rotated token has been answered, and the token has not expired by
then, no token of its family is usable in any later state. -/
theorem refresh_reuse_detected (hp : (Deployment.ets config subjectOf true).Reachable p) :
    (rotations p).Nodup ∧
    ∀ {i : Nat} {choice : Choice} {token : String} {r : RefreshToken}
      {q a w : Server config subjectOf true},
      presentsNext p i = some token →
      (store p).refreshTokens.lookup (config.host.tokenHash token) = some r →
      r.rotatedAt ≠ none →
      (Deployment.ets config subjectOf true).service.step p (.run i choice) = some q →
      (Deployment.ets config subjectOf true).service.Reach q a →
      Deployment.isAnswered a i = true → expired a.world.clock r.expiresAt = false →
      (Deployment.ets config subjectOf true).service.Reach a w →
      ∀ t ∈ usableTokens w, t.familyId ≠ r.familyId := by
  obtain ⟨hsound, hlineage⟩ := lineage_of_reachable hp
  refine ⟨hlineage.nodup, ?_⟩
  intro i choice token r q a w hnext hr hrotated hstep hqa hanswered hunexpired haw t ht hfamily
  have hpq : (Deployment.ets config subjectOf true).service.Reach p q := .single ⟨_, trivial, hstep⟩
  obtain ⟨ha, hla⟩ := lineage_of_reachable (hp.trans (hpq.trans hqa))
  have hlater := (later_of_reach hsound (hpq.trans hqa)).2
  obtain ⟨r', hr', hages⟩ := hlater.grown.refresh hr
  suffices hdead : Dead a r'.familyId by
    obtain ⟨hrow, husable⟩ := List.mem_filter.mp ht
    obtain ⟨k, hk⟩ := Table.mem_rows.mp hrow
    rw [(hdead.later ha hr' rfl haw).unusable hk (hfamily.trans hages.familyId.symm)] at husable
    cases husable
  rcases step_cases hsound.coherent hstep with ⟨j, request, e, ⟨choice', hrun⟩, hran⟩ | ⟨hne, -⟩
  swap
  · exact absurd rfl (hne i choice)
  cases hrun
  obtain ⟨⟨authorization, params, hendpoint⟩, hpresents⟩ := presentsNext_ran hran hnext
  have hfailed := never_rotates hsound hr hrotated (not_rotated_yet hran hpresents) (hpq.trans hqa)
  have hsettled : Settled (a.own i) :=
    settled_of_answered ha hanswered (hlater.serves hran.serves_self) hendpoint
  have hlog : (i, e) ∈ a.log :=
    (later_of_reach (hsound.step hstep) hqa).2.log (hran.mem_log.mpr (.inr ⟨rfl, rfl⟩))
  obtain ⟨new, answer, he⟩ : ∃ new answer,
      (i, ⟨.store (.rotateRefreshToken token new), answer⟩) ∈ a.log := by
    rcases hpresents with ⟨answer, rfl⟩ | ⟨new, answer, rfl⟩
    · -- the rotated token was read as not usable, so it was probed
      obtain ⟨reason, rfl⟩ := read_rotated hran hr hrotated
      obtain ⟨new, answer, he⟩ := hsettled.probed token ⟨reason, Pool.mem_own.mpr hlog⟩
      exact ⟨new, answer, Pool.mem_own.mp he⟩
    · exact ⟨new, answer, hlog⟩
  refine dead_of_rotation ha hla hsettled he (fun old hok => ?_) hr' ?_
  · subst hok
    exact hfailed new old he
  · rw [hages.expiresAt]
    exact hunexpired

end Forward

/-- Request `3` presents `"token-1"` again; its next operation reads the token. -/
def reuse : List (Action Request Choice Move) :=
  Sample.rotation ++ [.arrive (Sample.refreshRequest "token-1"), Sample.go 3 ""]

/-- The probe and the revocation of request `3`. -/
def probe : List (Action Request Choice Move) :=
  Sample.steps 3 ["probe-token", "probe-family", "", "", ""]

/-- Request `3` presents the rotated token in `p`; in `a` it has been answered, and
the token has not expired. -/
def reusedAndAnswered (p a : Server Sample.config Sample.subjectOf true) : Bool :=
  presentsNext p 3 == some "token-1" && rotations p == ["token-1"] &&
    Deployment.isAnswered a 3 && (store a).refreshTokens.rows.length == 2 &&
    ((store p).refreshTokens.lookup "token-1").any fun r =>
      r.rotatedAt.isSome && !expired a.world.clock r.expiresAt && r.familyId == "family-1"

/-- A rotated token comes again before it expires, and its family ends. -/
theorem refresh_reuse_detected_sample : ∃ p q a : Server Sample.config Sample.subjectOf true,
    (Deployment.ets Sample.config Sample.subjectOf true).Reachable p ∧
    presentsNext p 3 = some "token-1" ∧
    (Deployment.ets Sample.config Sample.subjectOf true).service.step p (Sample.go 3 "") = some q ∧
    (Deployment.ets Sample.config Sample.subjectOf true).service.runs q probe = some a ∧
    Deployment.isAnswered a 3 = true ∧ (store a).refreshTokens.rows.length = 2 ∧
    rotations p = ["token-1"] ∧ (rotations p).Nodup ∧
    ∀ t ∈ usableTokens a, t.familyId ≠ "family-1" := by
  have hrun : (((Deployment.ets Sample.config Sample.subjectOf true).service.runs
      ((Deployment.ets Sample.config Sample.subjectOf true).initial 0) reuse).bind fun p =>
      ((Deployment.ets Sample.config Sample.subjectOf true).service.step p (Sample.go 3 "")).bind
        fun q => ((Deployment.ets Sample.config Sample.subjectOf true).service.runs q probe).map
          (reusedAndAnswered p)) = some true := by decide +kernel
  obtain ⟨p, hp, hrun⟩ := Option.bind_eq_some_iff.mp hrun
  obtain ⟨q, hq, hrun⟩ := Option.bind_eq_some_iff.mp hrun
  obtain ⟨a, ha, hobs⟩ := Option.map_eq_some_iff.mp hrun
  simp only [reusedAndAnswered, Bool.and_eq_true, beq_iff_eq, Option.any_eq_true,
    Bool.not_eq_true'] at hobs
  obtain ⟨⟨⟨⟨hnext, hrotations⟩, hanswered⟩, hrows⟩, r, hr, ⟨hrotated, hunexpired⟩, hfamily⟩ := hobs
  have hreach : (Deployment.ets Sample.config Sample.subjectOf true).Reachable p :=
    ⟨0, Service.reach_of_runs hp⟩
  have hreuse := refresh_reuse_detected hreach
  refine ⟨p, q, a, hreach, hnext, hq, ha, hanswered, hrows, hrotations, hreuse.1, ?_⟩
  rw [← hfamily]
  exact hreuse.2 hnext hr (Option.isSome_iff_ne_none.mp hrotated) hq (Service.reach_of_runs ha)
    hanswered hunexpired .refl

/-- `"token-1"`, good until 1000 s, is rotated at 900 s and presented again by
request `3`, whose next operation reads it. -/
def reuseNearExpiry : List (Action Request Choice Move) :=
  Sample.redemption ++ [.move (.tick 900000000), .arrive (Sample.refreshRequest "token-1")] ++
    Sample.steps 2 ["", "", "token-2", "", "id-2", "", "", "jti-2", ""] ++
    [.arrive (Sample.refreshRequest "token-1"), Sample.go 3 ""]

/-- The token expires after the read and before the probe's rotation. -/
def expiresBeforeProbe : List (Action Request Choice Move) :=
  [Sample.go 3 "", .move (.tick 1000000000)] ++
    Sample.steps 3 ["probe-token", "probe-family", "", ""]

/-- Request `3` presents the rotated and unexpired token in `p`; in `a` it has been
answered, and a token of the family is usable. -/
def reusedAndUsable (p a : Server Sample.config Sample.subjectOf true) : Bool :=
  presentsNext p 3 == some "token-1" && Deployment.isAnswered a 3 &&
    ((store p).refreshTokens.lookup "token-1").any fun r =>
      r.rotatedAt.isSome && !expired p.world.clock r.expiresAt &&
        (usableTokens a).any fun t => t.familyId == r.familyId

/-- `rotate_refresh` asks for the expiry before it asks for the rotation: a reused
token that expires on the way to the probe is `:not_found` and leaves its family alive. -/
theorem reuse_missed_near_expiry : ∃ p a : Server Sample.config Sample.subjectOf true, ∃ r t,
    (Deployment.ets Sample.config Sample.subjectOf true).Reachable p ∧
    presentsNext p 3 = some "token-1" ∧
    (store p).refreshTokens.lookup "token-1" = some r ∧ r.rotatedAt ≠ none ∧
    expired p.world.clock r.expiresAt = false ∧
    (Deployment.ets Sample.config Sample.subjectOf true).service.Reach p a ∧
    Deployment.isAnswered a 3 = true ∧ t ∈ usableTokens a ∧ t.familyId = r.familyId := by
  have hrun : (((Deployment.ets Sample.config Sample.subjectOf true).service.runs
      ((Deployment.ets Sample.config Sample.subjectOf true).initial 0) reuseNearExpiry).bind
        fun p => ((Deployment.ets Sample.config Sample.subjectOf true).service.runs p
          expiresBeforeProbe).map (reusedAndUsable p)) = some true := by decide +kernel
  obtain ⟨p, hp, hrun⟩ := Option.bind_eq_some_iff.mp hrun
  obtain ⟨a, ha, hobs⟩ := Option.map_eq_some_iff.mp hrun
  simp only [reusedAndUsable, Bool.and_eq_true, beq_iff_eq, Option.any_eq_true, List.any_eq_true,
    Bool.not_eq_true'] at hobs
  obtain ⟨⟨hnext, hanswered⟩, r, hr, ⟨hrotated, hunexpired⟩, t, ht, hfamily⟩ := hobs
  exact ⟨p, a, r, t, ⟨0, Service.reach_of_runs hp⟩, hnext, hr,
    Option.isSome_iff_ne_none.mp hrotated, hunexpired, Service.reach_of_runs ha, hanswered, ht,
    hfamily⟩

/-! ## Chains -/

section Chains

variable {config : Config} {subjectOf : Nat → String} {forward : Bool}

/-- The code a request redeemed. -/
def redeemedBy (p : Server config subjectOf forward) (i : Nat) : Option AuthorizationCode :=
  (p.own i).findSome? fun e => match e with
    | ⟨.store (.takeAuthorizationCode _), .ok source⟩ => some source
    | _ => none

/-- The keys of the tokens first minted for a code, each with the code. -/
def firstTokens (p : Server config subjectOf forward) : List (AuthorizationCode × String) :=
  p.log.filterMap fun x => match x.2 with
    | ⟨.store (.putRefreshToken token), .ok _⟩ => (redeemedBy p x.1).bind fun source =>
      token.token.map fun value => (source, config.host.tokenHash value)
    | _ => none

/-- The rotations made so far: the key of the token presented and the key of its
successor. -/
def rotationLinks (p : Server config subjectOf forward) : List (String × String) :=
  p.log.filterMap fun x => match x.2 with
    | ⟨.store (.rotateRefreshToken presented new), .ok _⟩ => new.token.map fun value =>
      (config.host.tokenHash presented, config.host.tokenHash value)
    | _ => none

/-- The second key is reached from the first by rotations. -/
def Rotated (p : Server config subjectOf forward) : String → String → Prop :=
  Relation.ReflTransGen fun k k' => (k, k') ∈ rotationLinks p

variable {source : AuthorizationCode} {p : Server config subjectOf forward} {k k' : String}

theorem redeemedBy_eq {i : Nat} (h : redeemedBy p i = some source) : ∃ code,
      (i, ⟨.store (.takeAuthorizationCode code), .ok source⟩) ∈ p.log := by
  obtain ⟨e, he, heq⟩ := List.exists_of_findSome?_eq_some h
  split at heq
  · cases heq
    exact ⟨_, Pool.mem_own.mp he⟩
  · cases heq

theorem mem_firstTokens (h : (source, k) ∈ firstTokens p) : ∃ i code token value,
      (i, ⟨.store (.takeAuthorizationCode code), .ok source⟩) ∈ p.log ∧
      (i, ⟨.store (.putRefreshToken token), .ok ()⟩) ∈ p.log ∧
      token.token = some value ∧ config.host.tokenHash value = k := by
  obtain ⟨⟨i, e⟩, he, heq⟩ := List.mem_filterMap.mp h
  dsimp only at heq
  split at heq
  · obtain ⟨source', hsource, heq⟩ := Option.bind_eq_some_iff.mp heq
    obtain ⟨value, hraw, heq⟩ := Option.map_eq_some_iff.mp heq
    cases heq
    obtain ⟨code, htook⟩ := redeemedBy_eq hsource
    exact ⟨i, code, _, value, htook, he, hraw, rfl⟩
  · cases heq

theorem mem_rotationLinks (h : (k, k') ∈ rotationLinks p) : ∃ i presented new old value,
      (i, ⟨.store (.rotateRefreshToken presented new), .ok old⟩) ∈ p.log ∧
      config.host.tokenHash presented = k ∧ new.token = some value ∧
      config.host.tokenHash value = k' := by
  obtain ⟨⟨i, e⟩, he, heq⟩ := List.mem_filterMap.mp h
  dsimp only at heq
  split at heq
  · obtain ⟨value, hraw, heq⟩ := Option.map_eq_some_iff.mp heq
    cases heq
    exact ⟨i, _, _, _, value, he, rfl, hraw, rfl⟩
  · cases heq

/-- The token grants no more than the other, to the same holder, in the same
family with the same deadline. -/
structure Descends (r' r : RefreshToken) : Prop where
  scope : r'.scope ⊆ r.scope
  subject : r'.subject = r.subject
  clientId : r'.clientId = r.clientId
  resource : r'.resource = r.resource
  familyId : r'.familyId = r.familyId
  familyExpiresAt : r'.familyExpiresAt = r.familyExpiresAt

theorem Descends.refl (r : RefreshToken) : Descends r r :=
  ⟨List.Subset.refl _, rfl, rfl, rfl, rfl, rfl⟩

theorem Descends.trans {r r' r'' : RefreshToken} (h : Descends r' r) (h' : Descends r'' r') :
    Descends r'' r :=
  ⟨List.Subset.trans h'.scope h.scope, h'.subject.trans h.subject, h'.clientId.trans h.clientId,
    h'.resource.trans h.resource, h'.familyId.trans h.familyId,
    h'.familyExpiresAt.trans h.familyExpiresAt⟩

/-- The token grants what the code granted, or less of its scope. -/
structure StemsFrom (r : RefreshToken) (source : AuthorizationCode) : Prop where
  scope : r.scope ⊆ source.scope
  subject : r.subject = source.subject
  clientId : r.clientId = source.clientId
  resource : r.resource = source.resource
  familyId : source.refreshFamilyId = some r.familyId

theorem StemsFrom.descends {r r' : RefreshToken} (h : StemsFrom r source) (h' : Descends r' r) :
    StemsFrom r' source :=
  ⟨List.Subset.trans h'.scope h.scope, h'.subject.trans h.subject, h'.clientId.trans h.clientId,
    h'.resource.trans h.resource, by rw [h.familyId, h'.familyId]⟩

variable {p : Server config subjectOf true}

/-- A rotation leads from a token to one that descends from it. -/
theorem link_descends (hp : Sound p) (hl : Lineage p) (h : (k, k') ∈ rotationLinks p) :
    ∃ r r', (store p).refreshTokens.lookup k = some r ∧
      (store p).refreshTokens.lookup k' = some r' ∧ Descends r' r := by
  obtain ⟨i, presented, new, old, value, he, rfl, hraw, rfl⟩ := mem_rotationLinks h
  have hnarrows := hl.narrowing i presented new old he
  obtain ⟨now, fresh, value', hraw', ⟨r, hr, hages⟩, ⟨r', hr', hages'⟩⟩ := hp.memory he
  obtain rfl : value' = value := Option.some.inj (hraw'.symm.trans hraw)
  refine ⟨r, r', hr, hr', ?_, ?_, ?_, ?_, ?_, ?_⟩
  · rw [hages'.scope, hages.scope]
    exact hnarrows.scope
  · rw [hages'.subject, hages.subject]
    exact hnarrows.subject
  · rw [hages'.clientId, hages.clientId]
    exact hnarrows.clientId
  · rw [hages'.resource, hages.resource]
    exact hnarrows.resource
  · rw [hages'.familyId, hages.familyId]
    rfl
  · rw [hages'.familyExpiresAt, hages.familyExpiresAt]
    rfl

/-- The first token grants what the code grants. -/
theorem first_stems (hp : Sound p) (h : (source, k) ∈ firstTokens p) :
    ∃ r, (store p).refreshTokens.lookup k = some r ∧
      StemsFrom r source := by
  obtain ⟨i, code, token, value, htook, hput, hraw, rfl⟩ := mem_firstTokens h
  obtain ⟨_, before, -, hsub, hmints⟩ := hp.logged hput
  obtain ⟨code', source', htook', hfamily, hclient, hsubject, hscope, hresource⟩ :=
    hp.founder hmints hsub
  -- the request redeemed one code
  cases hp.opened_once htook htook' rfl rfl
  obtain ⟨now, fresh, value', hraw', r, hr, hages⟩ := hp.memory hput
  obtain rfl : value' = value := Option.some.inj (hraw'.symm.trans hraw)
  refine ⟨r, hr, ?_, ?_, ?_, ?_, ?_⟩
  · rw [hages.scope]
    exact fun s hs => hscope ▸ hs
  · rw [hages.subject]
    exact hsubject
  · rw [hages.clientId]
    exact hclient
  · rw [hages.resource]
    exact hresource
  · rw [hages.familyId]
    exact hfamily

/-- Along the rotations from a token, every token descends from it. -/
theorem rotated_descends (hp : Sound p) (hl : Lineage p) {k₀ : String} {r₀ : RefreshToken}
    (hr₀ : (store p).refreshTokens.lookup k₀ = some r₀) (h : Rotated p k₀ k) :
    ∃ r, (store p).refreshTokens.lookup k = some r ∧ Descends r r₀ := by
  induction h with
  | refl => exact ⟨r₀, hr₀, .refl r₀⟩
  | tail _ hlink ih =>
    obtain ⟨r, hr, hdescends⟩ := ih
    obtain ⟨r', r'', hr', hr'', hdescends'⟩ := link_descends hp hl hlink
    rw [hr] at hr'
    cases hr'
    exact ⟨r'', hr'', hdescends.trans hdescends'⟩

/-- An access token is signed for a scope of the code redeemed, or of the refresh
token rotated, by the same request. -/
theorem signed_within (hp : Sound p) {i : Nat} {claims : Claims} {jwt : String}
    (h : (i, ⟨.sign claims, jwt⟩) ∈ p.log) : ∃ scope,
      claims.scope = joinScope scope ∧
      ((∃ code source, (i, ⟨.store (.takeAuthorizationCode code), .ok source⟩) ∈
          p.log ∧ scope ⊆ source.scope) ∨
        ∃ presented new old r,
          (i, ⟨.store (.rotateRefreshToken presented new), .ok old⟩) ∈ p.log ∧
          (store p).refreshTokens.lookup (config.host.tokenHash presented) = some r ∧
          scope ⊆ r.scope) := by
  obtain ⟨req, before, -, hsub, scope, hclaims, hbacked⟩ := hp.logged h
  refine ⟨scope, hclaims, ?_⟩
  rcases hbacked with ⟨code, source, htook, rfl⟩ |
    ⟨presented, new, old, existing, hrotated, hgot, -, hscope⟩
  · exact .inl ⟨code, source, hsub _ htook, List.Subset.refl _⟩
  · obtain ⟨r, hr, hages⟩ := hp.memory (hsub _ hgot)
    exact .inr ⟨presented, new, old, r, hsub _ hrotated, hr, hages.scope ▸ hscope⟩

/-- No privilege grows along a chain of rotations: every token descends from its
predecessor, every token of the chain of a code stems from the code and keeps the
deadline of the first token, and every access token stays within what it was
minted from. -/
theorem refresh_chain_narrows (h : (Deployment.ets config subjectOf true).Reachable p) :
    (∀ {k k'}, (k, k') ∈ rotationLinks p → ∃ r r', (store p).refreshTokens.lookup k = some r ∧
      (store p).refreshTokens.lookup k' = some r' ∧ Descends r' r) ∧
    (∀ {source k₀ k}, (source, k₀) ∈ firstTokens p → Rotated p k₀ k → ∃ r₀ r,
      (store p).refreshTokens.lookup k₀ = some r₀ ∧ (store p).refreshTokens.lookup k = some r ∧
      StemsFrom r source ∧ r.familyExpiresAt = r₀.familyExpiresAt) ∧
    ∀ {i claims jwt}, (i, ⟨.sign claims, jwt⟩) ∈ p.log → ∃ scope,
      claims.scope = joinScope scope ∧
      ((∃ code source, (i, ⟨.store (.takeAuthorizationCode code), .ok source⟩) ∈
          p.log ∧ scope ⊆ source.scope) ∨
        ∃ presented new old r,
          (i, ⟨.store (.rotateRefreshToken presented new), .ok old⟩) ∈ p.log ∧
          (store p).refreshTokens.lookup (config.host.tokenHash presented) = some r ∧
          scope ⊆ r.scope) := by
  obtain ⟨hsound, hlineage⟩ := lineage_of_reachable h
  refine ⟨link_descends hsound hlineage, ?_, signed_within hsound⟩
  intro source k₀ k hfirst hrotated
  obtain ⟨r₀, hr₀, hstems⟩ := first_stems hsound hfirst
  obtain ⟨r, hr, hdescends⟩ := rotated_descends hsound hlineage hr₀ hrotated
  exact ⟨r₀, r, hr₀, hr, hstems.descends hdescends, hdescends.familyExpiresAt⟩

/-- In every state each refresh token has one founder, the request that redeemed a code of its
family, and the tokens of a family are revoked together. -/
theorem families_founded_once (h : (Deployment.ets config subjectOf true).Reachable p) :
    (∀ {k r}, (store p).refreshTokens.lookup k = some r → ∃ i code source,
      TookCode (p.own i) code source ∧ source.refreshFamilyId = some r.familyId ∧
      ∀ j code' source', TookCode (p.own j) code' source' →
        source'.refreshFamilyId = some r.familyId → j = i) ∧ Uniform p := by
  obtain ⟨hsound, hlineage⟩ := lineage_of_reachable h
  refine ⟨fun hr => ?_, hlineage.uniform⟩
  obtain ⟨i, token, hput, hfamily⟩ := hsound.founded hr
  obtain ⟨_, before, -, hsub, hmints⟩ := hsound.logged hput
  obtain ⟨code, source, htook, hsource, -⟩ := hsound.founder hmints hsub
  rw [hfamily] at hsource
  refine ⟨i, code, source, Pool.mem_own.mpr htook, hsource, fun j code' source' htook' hsame => ?_⟩
  exact hsound.founder_unique (Pool.mem_own.mp htook') htook (hsame.trans hsource.symm)

theorem families_founded_once_sample : ∃ p : Server Sample.config Sample.subjectOf true,
    (store p).refreshTokens.rows.length = 2 ∧ Uniform p ∧ ∃ r i code source,
      (store p).refreshTokens.lookup "token-2" = some r ∧ TookCode (p.own i) code source ∧
      source.refreshFamilyId = some r.familyId ∧
      ∀ j code' source', TookCode (p.own j) code' source' →
        source'.refreshFamilyId = some r.familyId → j = i := by
  obtain ⟨p, hreach, hobs⟩ := Sample.exists_reachable Sample.rotation
    (fun p => ((store p).refreshTokens.rows.length,
      ((store p).refreshTokens.lookup "token-2").isSome)) (2, true) (by decide +kernel)
  obtain ⟨hrows, hstored⟩ := Prod.mk.inj hobs
  obtain ⟨r, hr⟩ := Option.isSome_iff_exists.mp hstored
  obtain ⟨hfounder, huniform⟩ := families_founded_once hreach
  obtain ⟨i, code, source, hfounded⟩ := hfounder hr
  exact ⟨p, hrows, huniform, r, i, code, source, hr, hfounded⟩

end Chains

theorem refresh_chain_narrows_sample : ∃ (p : Server Sample.config Sample.subjectOf true)
    (source : AuthorizationCode) (r₀ r : RefreshToken),
    (Deployment.ets Sample.config Sample.subjectOf true).Reachable p ∧
    (source, "token-1") ∈ firstTokens p ∧ ("token-1", "token-2") ∈ rotationLinks p ∧
    (store p).refreshTokens.lookup "token-1" = some r₀ ∧
    (store p).refreshTokens.lookup "token-2" = some r ∧
    StemsFrom r source ∧ r.familyExpiresAt = r₀.familyExpiresAt := by
  obtain ⟨p, hreach, hobs⟩ := Sample.exists_reachable Sample.rotation
    (fun p => ((firstTokens p).map Prod.snd, rotationLinks p))
    (["token-1"], [("token-1", "token-2")]) (by decide +kernel)
  obtain ⟨hfirst, hlinks⟩ := Prod.mk.inj hobs
  obtain ⟨⟨source, k⟩, hmem, rfl⟩ : ∃ x ∈ firstTokens p, x.2 = "token-1" := by
    have : "token-1" ∈ (firstTokens p).map Prod.snd := by simp [hfirst]
    simpa using List.mem_map.mp this
  have hlink : ("token-1", "token-2") ∈ rotationLinks p := by simp [hlinks]
  obtain ⟨r₀, r, hr₀, hr, hstems, hdeadline⟩ :=
    (refresh_chain_narrows hreach).2.1 hmem (.single hlink)
  exact ⟨p, source, r₀, r, hreach, hmem, hlink, hr₀, hr, hstems, hdeadline⟩

/-- `"token-1"` has expired when request `2` reads it; the clock is set back
before the probe's rotation. -/
def clockSetBack : List (Action Request Choice Move) :=
  Sample.redemption ++ [.move (.tick 1000000000), .arrive (Sample.refreshRequest "token-1")] ++
    Sample.steps 2 ["", ""] ++ [.move (.tick 900000000)] ++
    Sample.steps 2 ["probe-token", "probe-family", "", ""]

/-- With a clock that is set back the guarded update does find a row to claim, and
the probe is stored: the chain of a code goes on under another subject. -/
theorem probe_continues_chain : ∃ (p : Server Sample.config Sample.subjectOf false)
    (source : AuthorizationCode) (r : RefreshToken),
    (Deployment.ets Sample.config Sample.subjectOf false).Reachable p ∧
    (source, "token-1") ∈ firstTokens p ∧ ("token-1", "probe-token") ∈ rotationLinks p ∧
    (store p).refreshTokens.lookup "probe-token" = some r ∧ ¬ StemsFrom r source := by
  have hrun : (((Deployment.ets Sample.config Sample.subjectOf false).service.runs
      ((Deployment.ets Sample.config Sample.subjectOf false).initial 0) clockSetBack).map fun p =>
        ((firstTokens p).map fun x => (x.2, x.1.subject), rotationLinks p,
          ((store p).refreshTokens.lookup "probe-token").map (·.subject))) =
      some ([("token-1", "alice")], [("token-1", "probe-token")], some "reuse-probe") := by
    decide +kernel
  obtain ⟨p, hp, hobs⟩ := Option.map_eq_some_iff.mp hrun
  simp only [Prod.mk.injEq] at hobs
  obtain ⟨hfirst, hlinks, hstored⟩ := hobs
  obtain ⟨r, hr, hsubject⟩ := Option.map_eq_some_iff.mp hstored
  obtain ⟨⟨source, k⟩, hmem, hsource⟩ : ∃ x ∈ firstTokens p, (x.2, x.1.subject) =
      ("token-1", "alice") := List.mem_map.mp (hfirst ▸ List.mem_singleton_self _)
  obtain ⟨rfl, halice⟩ := Prod.mk.inj hsource
  refine ⟨p, source, r, ⟨0, Service.reach_of_runs hp⟩, hmem, by simp [hlinks], hr, fun h => ?_⟩
  have hsame := h.subject
  rw [hsubject, halice] at hsame
  exact absurd hsame (by decide)

end NoizuMcp.Auth.EtsRuns
