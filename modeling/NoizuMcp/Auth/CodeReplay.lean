import NoizuMcp.Auth.FamilyRuns

/-!
# Replayed authorization codes

The request that is told of a replay revokes the family of the code. The request
that redeemed the code puts the first token of the family in a later store call,
so the revocation may find the family still empty; the token put afterwards is
then usable. In every run without such a late put the revocation is final
(`replayKills_of_timely`).
-/

set_option autoImplicit false

namespace NoizuMcp.Auth.EtsRuns

open Foundation

variable {config : Config} {subjectOf : Nat → String} {forward : Bool}
  {p q : Server config subjectOf forward} {i : Nat} {request : Request} {e : ServerEvent}

/-! ## Reports and revocations -/

/-- The requests that were told of a replay, each with the family of the code. -/
def replayReports (p : Server config subjectOf forward) : List (Nat × String) :=
  p.log.filterMap fun x => match x.2 with
    | ⟨.store (.takeAuthorizationCode _), .error (.replayed record)⟩ =>
      record.refreshFamilyId.map fun family => (x.1, family)
    | _ => none

/-- The family revocations that have run, each with the request that made it. -/
def familyRevocations (p : Server config subjectOf forward) : List (Nat × String) :=
  p.log.filterMap fun x => match x.2 with
    | ⟨.store (.revokeRefreshFamily family), _⟩ => some (x.1, family)
    | _ => none

/-- The refresh tokens usable now. -/
def usableTokens (p : Server config subjectOf forward) : List RefreshToken :=
  (store p).refreshTokens.rows.filter fun t => t.usable p.world.clock

/-- No token of a family is usable once a replay of its code was reported and the
revocation that follows has run. -/
def ReplayKills (p : Server config subjectOf forward) : Prop :=
  ∀ x ∈ replayReports p, x ∈ familyRevocations p → ∀ t ∈ usableTokens p, t.familyId ≠ x.2

instance (p : Server config subjectOf forward) : Decidable (ReplayKills p) := by
  unfold ReplayKills
  infer_instance

/-- The next operation does not put the first token of a family that has been
revoked. -/
def timelyPut (p : Server config subjectOf forward) : Action Request Choice Move → Bool
  | .run i _ =>
    match p.threads[i]? with
    | some (_, .call (.store (.putRefreshToken token)) _) =>
      (familyRevocations p).all fun x => x.2 != token.familyId
    | _ => true
  | _ => true

variable {family : String} {choice : Choice}

theorem mem_replayReports (h : (i, family) ∈ replayReports p) :
    ∃ code record, record.refreshFamilyId = some family ∧
      (i, ⟨.store (.takeAuthorizationCode code), .error (.replayed record)⟩) ∈
        p.log := by
  obtain ⟨⟨j, e⟩, he, hreport⟩ := List.mem_filterMap.mp h
  dsimp only at hreport
  split at hreport
  · rename_i code record
    obtain ⟨family', hfamily, heq⟩ := Option.map_eq_some_iff.mp hreport
    cases heq
    exact ⟨code, record, hfamily, he⟩
  · cases hreport

theorem mem_familyRevocations : (i, family) ∈ familyRevocations p ↔
    ∃ done, (i, ⟨.store (.revokeRefreshFamily family), done⟩) ∈ p.log := by
  constructor
  · intro h
    obtain ⟨⟨j, e⟩, he, hrevoked⟩ := List.mem_filterMap.mp h
    dsimp only at hrevoked
    split at hrevoked
    · cases hrevoked
      exact ⟨_, he⟩
    · cases hrevoked
  · rintro ⟨done, he⟩
    exact List.mem_filterMap.mpr ⟨_, he, rfl⟩

/-- A timely put is of a family that has not been revoked. -/
theorem timelyPut_ran {token : RefreshToken} (h : Ran p i request e q)
    (htimely : timelyPut p (.run i choice) = true)
    (he : e = ⟨.store (.putRefreshToken token), .ok ()⟩) {x : Nat × String}
    (hx : x ∈ familyRevocations p) : token.familyId ≠ x.2 := by
  subst he
  obtain ⟨k, hthread, -⟩ := h.issued
  simp only [timelyPut, hthread, List.all_eq_true, bne_iff_ne] at htimely
  exact (htimely x hx).symm

/-! ## The invariant of timely runs -/

/-- The family of every report that was followed by its revocation is dead. -/
def ReportsFinal (p : Server config subjectOf forward) : Prop :=
  ∀ i code record family done, record.refreshFamilyId = some family →
    (i, ⟨.store (.takeAuthorizationCode code), .error (.replayed record)⟩) ∈ p.log →
    (i, ⟨.store (.revokeRefreshFamily family), done⟩) ∈ p.log → Dead p family

theorem ReportsFinal.ran (hp : Sound p) (hfinal : ReportsFinal p) (h : Ran p i request e q)
    (htimely : timelyPut p (.run i choice) = true) : ReportsFinal q := by
  intro j code record family done hfamily hreport hrevoked
  rcases h.mem_log.mp hrevoked with hrevoked | ⟨rfl, rfl⟩
  · rcases h.mem_log.mp hreport with hreport | ⟨rfl, rfl⟩
    · refine (hfinal j code record family done hfamily hreport hrevoked).ran hp h fun token he => ?_
      exact timelyPut_ran h htimely he (mem_familyRevocations.mpr ⟨done, hrevoked⟩)
    · -- the code is the first thing the request presents, so it has revoked nothing yet
      obtain ⟨e', he', hmajor⟩ := hp.revoked_for_cause hrevoked
      have hquiet : Quietly [] (p.own j) := h.permit.2.1
      obtain ⟨ext, hown, hminor⟩ := hquiet
      have hmem : e' ∈ ext := by
        have := Pool.mem_own.mpr he'
        rwa [hown] at this
      rw [hminor e' hmem] at hmajor
      cases hmajor
  · exact dead_of_revoke hp h

theorem ReportsFinal.around (hfinal : ReportsFinal p) (h : Around p q) : ReportsFinal q := by
  intro i code record family done hfamily hreport hrevoked
  exact (hfinal i code record family done hfamily (h.log ▸ hreport) (h.log ▸ hrevoked)).around h

theorem reportsFinal_of_timely {now : DateTime}
    (h : (Deployment.ets config subjectOf forward).service.ReachUnder
      (fun p a => timelyPut p a = true) ((Deployment.ets config subjectOf forward).initial now) p) :
    ReportsFinal p := by
  refine (Sound.invariant ReportsFinal ?_ ?_ h (.initial now) ?_).2
  · intro x y i request e choice hx hfinal htimely hran
    exact hfinal.ran hx hran htimely
  · intro x y _ hfinal haround
    exact hfinal.around haround
  · intro i code record family done _ hreport
    cases hreport

/-- In every run without a late put, a family whose code was replayed is never
usable again after the revocation. -/
theorem replayKills_of_timely {now : DateTime}
    (h : (Deployment.ets config subjectOf forward).service.ReachUnder
      (fun p a => timelyPut p a = true) ((Deployment.ets config subjectOf forward).initial now) p) :
    ReplayKills p := by
  rintro ⟨i, family⟩ hreport hrevoked t ht hfamily
  obtain ⟨code, record, hrecord, hlog⟩ := mem_replayReports hreport
  obtain ⟨done, hdone⟩ := mem_familyRevocations.mp hrevoked
  obtain ⟨hrow, husable⟩ := List.mem_filter.mp ht
  obtain ⟨k, hlookup⟩ := Table.mem_rows.mp hrow
  have hdead := reportsFinal_of_timely h i code record family done hrecord hlog hdone
  rw [hdead.unusable hlookup hfamily] at husable
  cases husable

/-- Two requests with one code, the second after the first has its tokens. -/
def orderlyReplay : List (Action Request Choice Move) :=
  Sample.login ++ [.arrive (Sample.codeRequest "code-1"), .arrive (Sample.codeRequest "code-1")] ++
    Sample.steps 1 ["", "", "", "jti-1", "", "token-1", "", "id-1", ""] ++
    Sample.steps 2 ["", "", ""]

theorem replayKills_orderlyReplay : ∃ p : Server Sample.config Sample.subjectOf false,
    (Deployment.ets Sample.config Sample.subjectOf false).service.runsIf timelyPut
      ((Deployment.ets Sample.config Sample.subjectOf false).initial 0) orderlyReplay = some p ∧
    replayReports p = [(2, "family-1")] ∧ familyRevocations p = [(2, "family-1")] ∧
    (store p).refreshTokens.rows.length = 1 ∧ ReplayKills p := by
  have hrun : (((Deployment.ets Sample.config Sample.subjectOf false).service.runsIf timelyPut
      ((Deployment.ets Sample.config Sample.subjectOf false).initial 0) orderlyReplay).map
        fun p => (replayReports p, familyRevocations p, (store p).refreshTokens.rows.length)) =
      some ([(2, "family-1")], [(2, "family-1")], 1) := by decide +kernel
  obtain ⟨p, hp, hobs⟩ := Option.map_eq_some_iff.mp hrun
  simp only [Prod.mk.injEq] at hobs
  exact ⟨p, hp, hobs.1, hobs.2.1, hobs.2.2,
    replayKills_of_timely (Service.reachUnder_of_runsIf hp)⟩

/-- The second request is told of the replay, and revokes, while the first has
redeemed the code but not put its token yet. -/
def lateReplay : List (Action Request Choice Move) :=
  Sample.login ++ [.arrive (Sample.codeRequest "code-1"), .arrive (Sample.codeRequest "code-1")] ++
    Sample.steps 1 ["", "", "", "jti-1", ""] ++ Sample.steps 2 ["", "", ""] ++
    Sample.steps 1 ["token-1", "", "id-1", ""]

/-- The token put late is usable. -/
theorem late_put_survives_replay : ∃ p : Server Sample.config Sample.subjectOf true,
    (Deployment.ets Sample.config Sample.subjectOf true).Reachable p ∧ ¬ ReplayKills p := by
  obtain ⟨p, hreach, hobs⟩ := Sample.exists_reachable lateReplay (fun p => decide (ReplayKills p))
    false (by decide +kernel)
  exact ⟨p, hreach, of_decide_eq_false hobs⟩

end NoizuMcp.Auth.EtsRuns
