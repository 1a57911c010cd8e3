import NoizuMcp.Auth.RefreshRuns

/-!
# Explicit revocation

What `POST /revoke` leaves behind when it is served alone from any state the
server can get into. The endpoint looks the token up by the getter that returns
usable tokens only, and not at all under the hint `access_token`, so the family
ends exactly when the token presented is itself usable and the hint does not
point away from it (`revoke_ends_family_iff`).
-/

set_option autoImplicit false

namespace NoizuMcp.Auth.EtsRuns

open Foundation

variable {config : Config} {subjectOf : Nat → String} {forward : Bool}

/-- The refresh token strings issued so far, each with the client. -/
def issuedTokens (p : Server config subjectOf forward) : List (String × String) :=
  p.log.filterMap fun x => match x.2 with
    | ⟨.store (.putRefreshToken record), .ok _⟩ =>
      record.token.map fun value => (record.clientId, value)
    | ⟨.store (.rotateRefreshToken _ record), .ok _⟩ =>
      record.token.map fun value => (record.clientId, value)
    | _ => none

/-- A token that was issued has a row, and the row names the client. -/
theorem issued_row {p : Server config subjectOf forward} (hp : Sound p) {clientId token : String}
    (h : (clientId, token) ∈ issuedTokens p) : ∃ r,
      (store p).refreshTokens.lookup (config.host.tokenHash token) = some r ∧
      r.clientId = clientId := by
  obtain ⟨⟨i, e⟩, he, heq⟩ := List.mem_filterMap.mp h
  dsimp only at heq
  split at heq
  · obtain ⟨value, hraw, heq⟩ := Option.map_eq_some_iff.mp heq
    cases heq
    obtain ⟨now, fresh, value, hraw', r, hr, hages⟩ := hp.memory he
    cases hraw'.symm.trans hraw
    exact ⟨r, hr, hages.clientId⟩
  · obtain ⟨value, hraw, heq⟩ := Option.map_eq_some_iff.mp heq
    cases heq
    obtain ⟨now, fresh, value, hraw', -, r, hr, hages⟩ := hp.memory he
    cases hraw'.symm.trans hraw
    exact ⟨r, hr, hages.clientId⟩
  · cases heq

/-! ## The endpoint served alone -/

section Alone

variable (config subjectOf forward)

/-- A program served alone. -/
def alone {α : Type} (choice : Choice) (prog : ServerM α) (w : World StoreEts) :
    α × World StoreEts :=
  Prog.runAlone ((Deployment.ets config subjectOf forward).execAlone choice) prog w

/-- The refresh tokens usable in a world. -/
def usableIn (w : World StoreEts) : List RefreshToken :=
  w.store.refreshTokens.rows.filter fun t => t.usable w.clock

variable {config subjectOf forward} {choice : Choice} {w : World StoreEts}

theorem alone_bind {α β : Type} (prog : ServerM α) (f : α → ServerM β) :
    alone config subjectOf forward choice (prog >>= f) w =
      alone config subjectOf forward choice (f (alone config subjectOf forward choice prog w).1)
        (alone config subjectOf forward choice prog w).2 :=
  Prog.runAlone_bind _ f prog w

theorem alone_pure {α : Type} (a : α) :
    alone config subjectOf forward choice (pure a) w = (a, w) := rfl

theorem alone_store (call : StoreCall) :
    alone config subjectOf forward choice (callStore call) w =
      ((StoreEts.perform config.host.tokenHash w.clock choice.value call w.store).1,
        { w with
          store := (StoreEts.perform config.host.tokenHash w.clock choice.value call
            w.store).2 }) := rfl

/-- Two worlds agree on the refresh tokens and the time. -/
def SameTokens (w w' : World StoreEts) : Prop :=
  w'.store.refreshTokens = w.store.refreshTokens ∧ w'.clock = w.clock

theorem SameTokens.trans {w' w'' : World StoreEts} (h : SameTokens w w')
    (h' : SameTokens w' w'') : SameTokens w w'' := ⟨h'.1.trans h.1, h'.2.trans h.2⟩

/-- The operations that resolve a client. -/
def resolvesClient : Op → Prop
  | .store (.getClient _) => True
  | .store (.putClient _) => True
  | .cimdResolve _ _ => True
  | _ => False

/-- Authenticating a client writes to the table of clients only. -/
theorem authenticateClient_alone (authorization : Option String) (params : Params) :
    SameTokens w (alone config subjectOf forward choice
      (authenticateClient config authorization params).run w).2 := by
  have hP : AllowsClients fun _ op => resolvesClient op :=
    ⟨fun _ _ => trivial, fun _ _ => trivial, fun _ _ _ => trivial⟩
  have hspec : Prog.Spec (fun _ op => resolvesClient op) (fun tr _ => Quietly [] tr) []
      (authenticateClient config authorization params).run :=
    authenticateClient_spec hP [] authorization params
  have hframe := hspec.runAlone_frame
    ((Deployment.ets config subjectOf forward).execAlone choice)
    (fun w : World StoreEts => (w.store.refreshTokens, w.clock)) (fun op w hop => ?_) w
  · exact ⟨(Prod.mk.inj hframe).1, (Prod.mk.inj hframe).2⟩
  · unfold resolvesClient at hop
    split at hop
    · rfl
    · rfl
    · rfl
    · exact hop.elim

theorem revokeAccessToken_alone (client : Client) (token : String) :
    SameTokens w (alone config subjectOf forward choice
      (RevokePlug.revokeAccessToken config client token) w).2 := by
  unfold RevokePlug.revokeAccessToken
  split
  · split
    · split
      · rw [alone_bind, alone_store]
        refine ⟨?_, rfl⟩
        simp only [StoreEts.perform, StoreEts.revokeAccessToken]
        split <;> rfl
      · exact ⟨rfl, rfl⟩
    · exact ⟨rfl, rfl⟩
  · exact ⟨rfl, rfl⟩

/-- Under the hint `access_token` no refresh token is touched. -/
theorem revoke_alone_hinted (client : Client) (token : String) :
    SameTokens w (alone config subjectOf forward choice
      (RevokePlug.revoke config client token (some "access_token")) w).2 :=
  revokeAccessToken_alone client token

variable {hint : Option String} {token : String} {r : RefreshToken} {client : Client}

section

variable (hhint : hint ≠ some "access_token")
  (hr : w.store.refreshTokens.lookup (config.host.tokenHash token) = some r)

include hhint hr

/-- A token that is not usable reads as unknown, and no refresh token is touched. -/
theorem revoke_alone_unusable (hunusable : r.usable w.clock = false) :
    SameTokens w (alone config subjectOf forward choice
      (RevokePlug.revoke config client token hint) w).2 := by
  have hget : StoreEts.getRefreshToken config.host.tokenHash w.clock token w.store =
      .error .notFound := by
    simp [StoreEts.getRefreshToken, hr, hunusable]
  unfold RevokePlug.revoke
  rw [if_neg hhint, alone_bind, alone_store]
  simp only [StoreEts.perform, hget]
  exact revokeAccessToken_alone client token

/-- A usable token of the client is revoked with its family. -/
theorem revoke_alone_usable
    (husable : r.usable w.clock = true) (hclient : r.clientId = client.clientId) :
    (alone config subjectOf forward choice
      (RevokePlug.revoke config client token hint) w).2.store.refreshTokens =
      Table.mapRows (StoreEts.revokeRow w.clock fun t => t.familyId == r.familyId)
        w.store.refreshTokens := by
  have hget : StoreEts.getRefreshToken config.host.tokenHash w.clock token w.store = .ok r := by
    simp [StoreEts.getRefreshToken, hr, husable]
  unfold RevokePlug.revoke
  rw [if_neg hhint, alone_bind, alone_store]
  simp only [StoreEts.perform, hget, if_pos hclient]
  rfl

end

/-- A served request authenticates its client and revokes the token. -/
theorem serve_alone {authorization : Option String} {params : Params}
    (hauth : (alone config subjectOf forward choice
      (authenticateClient config authorization params).run w).1 = .ok client)
    (htoken : params.fetch "token" = .ok token) :
    (alone config subjectOf forward choice (RevokePlug.serve config authorization params) w).2 =
      (alone config subjectOf forward choice
        (RevokePlug.revoke config client token (params.raw "token_type_hint"))
        (alone config subjectOf forward choice
          (authenticateClient config authorization params).run w).2).2 := by
  unfold RevokePlug.serve
  rw [alone_bind, ExceptT.run_bind, alone_bind, hauth]
  have hlift : (do
      let token ← check (Except.ok token)
      RevokePlug.revoke config client token (params.raw "token_type_hint") : Handler Unit).run =
      RevokePlug.revoke config client token (params.raw "token_type_hint") >>= fun u =>
        pure (Except.ok u) := rfl
  simp only [htoken, hlift, alone_bind, alone_pure]

end Alone

/-! ## Which revocations end the family -/

/-- The family is not usable in the world. -/
def FamilyEnded (w : World StoreEts) (family : String) : Prop :=
  ∀ t ∈ usableIn w, t.familyId ≠ family

instance (w : World StoreEts) (family : String) : Decidable (FamilyEnded w family) := by
  unfold FamilyEnded
  infer_instance

variable {w w' : World StoreEts} {family : String}

theorem SameTokens.familyEnded (h : SameTokens w w') :
    FamilyEnded w' family ↔ FamilyEnded w family := by
  unfold FamilyEnded usableIn
  rw [h.1, h.2]

/-- A family revocation ends the family at any time. -/
theorem familyEnded_of_revoked {now : DateTime} (h : w'.store.refreshTokens = Table.mapRows
      (StoreEts.revokeRow now fun t => t.familyId == family) w.store.refreshTokens) :
    FamilyEnded w' family := by
  intro t ht hfamily
  obtain ⟨hrow, husable⟩ := List.mem_filter.mp ht
  obtain ⟨k, hk⟩ := Table.mem_rows.mp hrow
  rw [h, Table.lookup_mapRows, Option.map_eq_some_iff] at hk
  obtain ⟨r, -, rfl⟩ := hk
  rw [(RefreshToken.Ages.revokeRow now _ r).familyId] at hfamily
  have hlive := (RefreshToken.usable_iff.mp husable).1
  cases hrevoked : r.revokedAt with
  | none => simp [StoreEts.revokeRow, hfamily, hrevoked] at hlive
  | some => simp [StoreEts.revokeRow, hrevoked] at hlive

/-- `POST /revoke` by the client a refresh token was issued to ends its family
exactly when the hint does not point to access tokens and the token presented is
itself usable, or when the family had ended before. -/
theorem revoke_ends_family_iff {p : Server config subjectOf forward}
    (hp : (Deployment.ets config subjectOf forward).Reachable p) {clientId token : String}
    (hissued : (clientId, token) ∈ issuedTokens p) {choice : Choice}
    {authorization : Option String} {params : Params} {client : Client}
    (hauth : (alone config subjectOf forward choice
      (authenticateClient config authorization params).run p.world).1 = .ok client)
    (hclient : client.clientId = clientId) (htoken : params.fetch "token" = .ok token) :
    ∃ r, (store p).refreshTokens.lookup (config.host.tokenHash token) = some r ∧
      (FamilyEnded (alone config subjectOf forward choice
          (RevokePlug.serve config authorization params) p.world).2 r.familyId ↔
        (params.raw "token_type_hint" ≠ some "access_token" ∧ r.usable p.world.clock = true) ∨
          FamilyEnded p.world r.familyId) := by
  obtain ⟨r, hr, hrclient⟩ := issued_row (sound_of_reachable hp) hissued
  refine ⟨r, hr, ?_⟩
  rw [serve_alone hauth htoken]
  have hsame : SameTokens p.world (alone config subjectOf forward choice
      (authenticateClient config authorization params).run p.world).2 :=
    authenticateClient_alone authorization params
  generalize (alone config subjectOf forward choice
    (authenticateClient config authorization params).run p.world).2 = w at hsame
  have hr' : w.store.refreshTokens.lookup (config.host.tokenHash token) = some r := hsame.1 ▸ hr
  by_cases hhint : params.raw "token_type_hint" = some "access_token"
  · rw [hhint, (hsame.trans (revoke_alone_hinted client token)).familyEnded]
    simp
  · cases husable : r.usable p.world.clock with
    | true =>
      refine iff_of_true (familyEnded_of_revoked (w := w) (revoke_alone_usable hhint hr'
        (hsame.2 ▸ husable) (hrclient.trans hclient.symm))) (.inl ⟨hhint, rfl⟩)
    | false =>
      rw [(hsame.trans (revoke_alone_unusable hhint hr' (hsame.2 ▸ husable))).familyEnded]
      simp

/-- The world after the client has revoked the token, with or without a hint. -/
def revokedByApp (token : String) (hint : Option String)
    (p : Server Sample.config Sample.subjectOf true) : World StoreEts :=
  (alone Sample.config Sample.subjectOf true {}
    (RevokePlug.serve Sample.config none (Sample.revokeParams token hint)) p.world).2

/-- The client authenticates with the request. -/
def appAuthenticates (token : String) (hint : Option String)
    (p : Server Sample.config Sample.subjectOf true) : Prop :=
  (alone Sample.config Sample.subjectOf true {}
    (authenticateClient Sample.config none (Sample.revokeParams token hint)).run p.world).1 =
      .ok Sample.client

instance (token : String) (hint : Option String)
    (p : Server Sample.config Sample.subjectOf true) :
    Decidable (appAuthenticates token hint p) := by
  unfold appAuthenticates
  infer_instance

theorem revoke_ends_family_iff_sample : ∃ p : Server Sample.config Sample.subjectOf true,
    (Deployment.ets Sample.config Sample.subjectOf true).Reachable p ∧
    ("app", "token-1") ∈ issuedTokens p ∧ appAuthenticates "token-1" none p ∧
    ∃ r, (store p).refreshTokens.lookup "token-1" = some r ∧
      FamilyEnded (revokedByApp "token-1" none p) r.familyId := by
  obtain ⟨p, hreach, hobs⟩ := Sample.exists_reachable Sample.redemption
    (fun p => decide (("app", "token-1") ∈ issuedTokens p ∧ appAuthenticates "token-1" none p ∧
      ((store p).refreshTokens.lookup "token-1").any (fun r => r.usable p.world.clock)))
    true (by decide +kernel)
  obtain ⟨hissued, hauth, husable⟩ := of_decide_eq_true hobs
  obtain ⟨r, hr, hiff⟩ := revoke_ends_family_iff hreach hissued hauth rfl
    (by decide +kernel : (Sample.revokeParams "token-1" none).fetch "token" = .ok "token-1")
  refine ⟨p, hreach, hissued, hauth, r, hr, hiff.mpr (.inl ⟨by decide +kernel, ?_⟩)⟩
  have hr' : (store p).refreshTokens.lookup "token-1" = some r := hr
  rw [hr'] at husable
  exact husable

/-- Revoking a rotated token leaves its successor usable, and so does revoking any
refresh token under the hint `access_token`. -/
theorem revoke_leaves_family_usable : ∃ p : Server Sample.config Sample.subjectOf true,
    (Deployment.ets Sample.config Sample.subjectOf true).Reachable p ∧
    (("app", "token-1") ∈ issuedTokens p ∧ appAuthenticates "token-1" none p ∧
      ¬ FamilyEnded (revokedByApp "token-1" none p) "family-1") ∧
    (("app", "token-2") ∈ issuedTokens p ∧ appAuthenticates "token-2" (some "access_token") p ∧
      ¬ FamilyEnded (revokedByApp "token-2" (some "access_token") p) "family-1") := by
  obtain ⟨p, hreach, hobs⟩ := Sample.exists_reachable Sample.rotation
    (fun p => decide ((("app", "token-1") ∈ issuedTokens p ∧ appAuthenticates "token-1" none p ∧
        ¬ FamilyEnded (revokedByApp "token-1" none p) "family-1") ∧
      (("app", "token-2") ∈ issuedTokens p ∧ appAuthenticates "token-2" (some "access_token") p ∧
        ¬ FamilyEnded (revokedByApp "token-2" (some "access_token") p) "family-1")))
    true (by decide +kernel)
  exact ⟨p, hreach, of_decide_eq_true hobs⟩

end NoizuMcp.Auth.EtsRuns
