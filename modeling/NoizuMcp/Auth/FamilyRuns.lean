import NoizuMcp.Auth.EtsRuns

/-!
# Codes and token families along a run

The invariant `Sound` of the server over the in-memory store, for any clock. Rows
are keyed by values that the request storing them drew itself, so no put or
rotation meets an existing row, and rows only age: a code stays used, a token
stays rotated and revoked, and nothing else about them changes. The tables
therefore remember every event of the log (`Sound.put`, `Sound.rotated`,
`Sound.got`, `Sound.taken`), and a token family belongs to one code and to the
one request that redeemed it (`Sound.founder_unique`).
-/

set_option autoImplicit false

namespace NoizuMcp.Auth

open Foundation Protocol

/-! ## Ageing rows -/

/-- What a refresh token grants, apart from what has become of it. -/
def RefreshToken.granted (r : RefreshToken) : RefreshToken :=
  { r with rotatedAt := none, rotatedTo := none, revokedAt := none }

/-- `r'` is `r` at a later time. -/
structure RefreshToken.Ages (r r' : RefreshToken) : Prop where
  granted : r'.granted = r.granted
  revoked : r.revokedAt ≠ none → r'.revokedAt ≠ none
  rotated : r.rotatedAt ≠ none → r'.rotatedAt = r.rotatedAt ∧ r'.rotatedTo = r.rotatedTo

namespace RefreshToken.Ages

variable {r r' r'' : RefreshToken}

theorem refl (r : RefreshToken) : Ages r r := ⟨rfl, fun h => h, fun _ => ⟨rfl, rfl⟩⟩

section

variable (h : Ages r r')

include h

theorem trans (h' : Ages r' r'') : Ages r r'' := by
  refine ⟨h'.granted.trans h.granted, h'.revoked ∘ h.revoked, fun hr => ?_⟩
  obtain ⟨hat, hto⟩ := h.rotated hr
  obtain ⟨hat', hto'⟩ := h'.rotated (hat ▸ hr)
  exact ⟨hat'.trans hat, hto'.trans hto⟩

theorem familyId : r'.familyId = r.familyId :=
  (congrArg RefreshToken.familyId h.granted :)

theorem clientId : r'.clientId = r.clientId :=
  (congrArg RefreshToken.clientId h.granted :)

theorem subject : r'.subject = r.subject :=
  (congrArg RefreshToken.subject h.granted :)

theorem scope : r'.scope = r.scope := (congrArg RefreshToken.scope h.granted :)

theorem resource : r'.resource = r.resource :=
  (congrArg RefreshToken.resource h.granted :)

theorem expiresAt : r'.expiresAt = r.expiresAt :=
  (congrArg RefreshToken.expiresAt h.granted :)

theorem familyExpiresAt : r'.familyExpiresAt = r.familyExpiresAt :=
  (congrArg RefreshToken.familyExpiresAt h.granted :)

theorem stays_rotated (hr : r.rotatedAt ≠ none) : r'.rotatedAt ≠ none := by
  rw [(h.rotated hr).1]
  exact hr

end

/-- The mark of a family revocation ages a row. -/
theorem revokeRow (now : DateTime) (predicate : RefreshToken → Bool) (r : RefreshToken) :
    Ages r (StoreEts.revokeRow now predicate r) := by
  unfold StoreEts.revokeRow
  split
  · exact ⟨rfl, fun _ => by simp, fun _ => ⟨rfl, rfl⟩⟩
  · exact .refl r

/-- The mark of a rotation ages a row that was not rotated. -/
theorem retired (now : DateTime) (fresh : String) {old : RefreshToken} (new : RefreshToken)
    (h : old.rotatedAt = none) : Ages old (StoreEts.retired now fresh old new) :=
  ⟨rfl, fun h => h, fun hr => absurd h hr⟩

end RefreshToken.Ages

/-- `c'` is the code `c` at a later time. -/
structure AuthorizationCode.Ages (c c' : AuthorizationCode) : Prop where
  granted : { c' with usedAt := none } = { c with usedAt := none }
  used : c.usedAt ≠ none → c'.usedAt ≠ none

namespace AuthorizationCode.Ages

variable {c c' c'' : AuthorizationCode}

theorem refl (c : AuthorizationCode) : Ages c c := ⟨rfl, fun h => h⟩

theorem trans (h : Ages c c') (h' : Ages c' c'') : Ages c c'' :=
  ⟨h'.granted.trans h.granted, h'.used ∘ h.used⟩

theorem refreshFamilyId (h : Ages c c') : c'.refreshFamilyId = c.refreshFamilyId :=
  (congrArg AuthorizationCode.refreshFamilyId h.granted :)

end AuthorizationCode.Ages

namespace EtsRuns

variable {config : Config} {subjectOf : Nat → String} {forward : Bool}
  {p q : Server config subjectOf forward} {i j : Nat} {request : Request} {e : ServerEvent}

/-! ## The keys of the tables -/

/-- The value under which an event stored a refresh token. -/
def refreshStored (e : ServerEvent) : Option String :=
  match e with
  | ⟨.store (.putRefreshToken record), .ok _⟩ => record.token
  | ⟨.store (.rotateRefreshToken _ record), .ok _⟩ => record.token
  | _ => none

variable {k value family : String} {r token : RefreshToken} {c : AuthorizationCode}
  {done : Except (StoreError Unit) Unit} {x y : Server config subjectOf forward}

theorem storesRefresh_of_stored (h : refreshStored e = some value) :
    e.op.storesRefresh = true := by
  unfold refreshStored at h
  split at h
  · rfl
  · rfl
  · cases h

/-- Every refresh token is keyed by a value that the request storing it drew. -/
def RefreshKeyed (p : Server config subjectOf forward) : Prop :=
  ∀ k r, (store p).refreshTokens.lookup k = some r → ∃ i value e,
    config.host.tokenHash value = k ∧ Drew p i value ∧ (i, e) ∈ p.log ∧
      refreshStored e = some value

/-- Every code is keyed by a value that the request storing it drew, and carries
a family that the request drew too. -/
def CodeKeyed (p : Server config subjectOf forward) : Prop :=
  ∀ k c, (store p).codes.lookup k = some c → ∃ i value family record,
    config.host.tokenHash value = k ∧ Drew p i value ∧ record.code = some value ∧
      Drew p i family ∧ record.refreshFamilyId = some family ∧ c.refreshFamilyId = some family ∧
      (i, ⟨.store (.putAuthorizationCode record), .ok ()⟩) ∈ p.log

/-- A value the running request drew keys no refresh token before the request
stores one. -/
theorem unkeyed_refresh (hs : Secrets p) (hk : RefreshKeyed p) (hd : Drew p i value)
    (hfirst : Silent Op.storesRefresh (p.own i)) :
    (store p).refreshTokens.lookup (config.host.tokenHash value) = none := by
  rw [Option.eq_none_iff_forall_not_mem]
  intro r hr
  obtain ⟨j, other, e, hhash, hother, he, hstored⟩ := hk _ _ hr
  obtain ⟨rfl, rfl⟩ := hs.distinct hother hd hhash
  have := hfirst e (Pool.mem_own.mpr he)
  rw [storesRefresh_of_stored hstored] at this
  cases this

/-- A value the running request drew keys no code before the request stores one. -/
theorem unkeyed_code (hs : Secrets p) (hk : CodeKeyed p) (hd : Drew p i value)
    (hfirst : Silent Op.storesCode (p.own i)) :
    (store p).codes.lookup (config.host.tokenHash value) = none := by
  rw [Option.eq_none_iff_forall_not_mem]
  intro c hc
  obtain ⟨j, other, family, record, hhash, hother, -, -, -, -, he⟩ := hk _ _ hc
  obtain ⟨rfl, rfl⟩ := hs.distinct hother hd hhash
  cases hfirst _ (Pool.mem_own.mpr he)

/-! ## What a step does to the refresh tokens and the codes -/

/-- The change of the refresh tokens in a step, with the conditions under which
it was made. -/
inductive RefreshStep (p : Server config subjectOf forward) (i : Nat) (request : Request)
    (e : ServerEvent) (q : Server config subjectOf forward) : Prop where
  | put (token : RefreshToken) (value fresh : String) (raw : token.token = some value)
      (mints : MintsFirst (p.own i) token)
      (unkeyed : (store p).refreshTokens.lookup (config.host.tokenHash value) = none)
      (event : e = ⟨.store (.putRefreshToken token), .ok ()⟩)
      (table : (store q).refreshTokens = (store p).refreshTokens.insert
        (config.host.tokenHash value) (storedRefresh p.world.clock fresh token))
  | rotate (presented value fresh : String) (new old : RefreshToken)
      (raw : new.token = some value) (rotates : Rotates request (p.own i) presented new)
      (unkeyed : (store p).refreshTokens.lookup (config.host.tokenHash value) = none)
      (found : (store p).refreshTokens.lookup (config.host.tokenHash presented) = some old)
      (live : old.revokedAt = none) (unexpired : expired p.world.clock old.expiresAt = false)
      (unrotated : old.rotatedAt = none)
      (event : e = ⟨.store (.rotateRefreshToken presented new), .ok old⟩)
      (table : (store q).refreshTokens = ((store p).refreshTokens.insert
        (config.host.tokenHash value) (StoreEts.successor p.world.clock fresh old new)).insert
          (config.host.tokenHash presented) (StoreEts.retired p.world.clock fresh old new))
  | revoke (family : String) (event : e = ⟨.store (.revokeRefreshFamily family), .ok ()⟩)
      (table : (store q).refreshTokens = Table.mapRows
        (StoreEts.revokeRow p.world.clock fun t => t.familyId == family) (store p).refreshTokens)
  | same (unchanged : changesRefresh e = false)
      (table : (store q).refreshTokens = (store p).refreshTokens)

theorem Ran.refreshStep (h : Ran p i request e q) (hs : Secrets p) (hk : RefreshKeyed p) :
    RefreshStep p i request e q := by
  have hpermit := h.permit
  have heffect := h.refresh
  generalize htable : (store q).refreshTokens = t' at heffect
  cases heffect with
  | @put token value fresh raw =>
    have hmints : MintsFirst (p.own i) token := hpermit
    obtain ⟨value', hraw, hdrew⟩ := hmints.token
    obtain rfl : value' = value := Option.some.inj (hraw.symm.trans raw)
    exact .put token value' fresh raw hmints
      (unkeyed_refresh hs hk (.ofToken hdrew) hmints.first) rfl htable
  | @rotate presented value fresh new old raw found live unexpired unrotated =>
    have hrotates : Rotates request (p.own i) presented new := hpermit
    obtain ⟨value', hraw, hdrew⟩ := hrotates.token
    obtain rfl : value' = value := Option.some.inj (hraw.symm.trans raw)
    exact .rotate presented value' fresh new old raw hrotates
      (unkeyed_refresh hs hk (.ofToken hdrew) hrotates.first) found live unexpired unrotated rfl
      htable
  | @revoke family => exact .revoke family rfl htable
  | same unchanged => exact .same unchanged htable

/-- How a step changes one row: it ages, and it is revoked or rotated now only by
a step of that kind. -/
structure RowStep (config : Config) (e : ServerEvent) (k : String) (r₀ r : RefreshToken) :
    Prop where
  ages : r₀.Ages r
  revoked : r.revokedAt ≠ none → r₀.revokedAt ≠ none ∨
    e = ⟨.store (.revokeRefreshFamily r₀.familyId), .ok ()⟩
  rotated : r.rotatedAt ≠ none → r₀.rotatedAt ≠ none ∨ ∃ presented new,
    e = ⟨.store (.rotateRefreshToken presented new), .ok r₀⟩ ∧ config.host.tokenHash presented = k

theorem RowStep.refl (e : ServerEvent) (k : String) (r : RefreshToken) :
    RowStep config e k r r := ⟨.refl r, .inl, .inl⟩

/-- Where a row of the new table comes from. -/
inductive RowOrigin (p : Server config subjectOf forward) (i : Nat) (request : Request)
    (e : ServerEvent) (k : String) (r : RefreshToken) : Prop where
  | aged (r₀ : RefreshToken) (found : (store p).refreshTokens.lookup k = some r₀)
      (step : RowStep config e k r₀ r)
  | first (token : RefreshToken) (value fresh : String)
      (event : e = ⟨.store (.putRefreshToken token), .ok ()⟩)
      (mints : MintsFirst (p.own i) token) (raw : token.token = some value)
      (key : config.host.tokenHash value = k)
      (row : r = storedRefresh p.world.clock fresh token)
  | successor (presented value fresh : String) (new old : RefreshToken)
      (event : e = ⟨.store (.rotateRefreshToken presented new), .ok old⟩)
      (rotates : Rotates request (p.own i) presented new) (raw : new.token = some value)
      (found : (store p).refreshTokens.lookup (config.host.tokenHash presented) = some old)
      (live : old.revokedAt = none) (key : config.host.tokenHash value = k)
      (row : r = StoreEts.successor p.world.clock fresh old new)

theorem RefreshStep.origin (h : RefreshStep p i request e q)
    (hr : (store q).refreshTokens.lookup k = some r) : RowOrigin p i request e k r := by
  cases h with
  | put token value fresh raw mints _ event table =>
    rw [table, Table.lookup_insert_ite] at hr
    split at hr
    · rename_i hkey
      cases hr
      exact .first token value fresh event mints raw hkey.symm rfl
    · exact .aged r hr (.refl e k r)
  | rotate presented value fresh new old raw rotates _ found live _ unrotated event table =>
    rw [table, Table.lookup_insert_ite] at hr
    split at hr
    · rename_i hkey
      cases hr
      exact .aged old (hkey ▸ found) ⟨.retired _ _ _ unrotated, .inl,
        fun _ => .inr ⟨presented, new, event, hkey.symm⟩⟩
    · rw [Table.lookup_insert_ite] at hr
      split at hr
      · rename_i hkey
        cases hr
        exact .successor presented value fresh new old event rotates raw found live hkey.symm rfl
      · exact .aged r hr (.refl e k r)
  | revoke family event table =>
    rw [table, Table.lookup_mapRows, Option.map_eq_some_iff] at hr
    obtain ⟨r₀, hr₀, rfl⟩ := hr
    refine .aged r₀ hr₀ ⟨.revokeRow _ _ _, fun hrevoked => ?_, fun hrotated => .inl ?_⟩
    · by_cases hfamily : r₀.familyId = family
      · subst hfamily
        exact .inr event
      · exact .inl (by simpa [StoreEts.revokeRow, hfamily] using hrevoked)
    · intro hnone
      refine hrotated ?_
      unfold StoreEts.revokeRow
      split <;> exact hnone
  | same _ table => exact .aged r (table ▸ hr) (.refl e k r)

/-- No row is lost, and rows only age. -/
theorem RefreshStep.grows (h : RefreshStep p i request e q)
    (hr : (store p).refreshTokens.lookup k = some r) :
    ∃ r', (store q).refreshTokens.lookup k = some r' ∧ r.Ages r' := by
  cases h with
  | put _ _ _ _ _ unkeyed _ table =>
    refine ⟨r, ?_, .refl r⟩
    rw [table, Table.lookup_insert_ite, if_neg, hr]
    rintro rfl
    rw [unkeyed] at hr
    cases hr
  | rotate _ _ _ _ _ _ _ unkeyed found _ _ unrotated _ table =>
    rw [table, Table.lookup_insert_ite]
    split
    · rename_i hkey
      subst hkey
      rw [found] at hr
      cases hr
      exact ⟨_, rfl, .retired _ _ _ unrotated⟩
    · refine ⟨r, ?_, .refl r⟩
      rw [Table.lookup_insert_ite, if_neg, hr]
      rintro rfl
      rw [unkeyed] at hr
      cases hr
  | revoke _ _ table => exact ⟨_, by rw [table, Table.lookup_mapRows, hr]; rfl, .revokeRow _ _ _⟩
  | same _ table => exact ⟨r, table ▸ hr, .refl r⟩

/-- The change of the codes in a step, with the conditions under which it was made. -/
inductive CodeStep (p : Server config subjectOf forward) (i : Nat) (request : Request)
    (e : ServerEvent) (q : Server config subjectOf forward) : Prop where
  | put (record : AuthorizationCode) (value : String) (raw : record.code = some value)
      (issues : IssuesCode config request (p.own i) record)
      (unkeyed : (store p).codes.lookup (config.host.tokenHash value) = none)
      (event : e = ⟨.store (.putAuthorizationCode record), .ok ()⟩)
      (table : (store q).codes = (store p).codes.insert (config.host.tokenHash value)
        (storedCode p.world.clock record))
  | take (presented : String) (code : AuthorizationCode)
      (found : (store p).codes.lookup (config.host.tokenHash presented) = some code)
      (unused : code.usedAt = none)
      (event : e = ⟨.store (.takeAuthorizationCode presented), .ok code⟩)
      (table : (store q).codes = (store p).codes.insert (config.host.tokenHash presented)
        { code with usedAt := some p.world.clock })
  | same (unchanged : changesCodes e = false) (table : (store q).codes = (store p).codes)

theorem Ran.codeStep (h : Ran p i request e q) (hs : Secrets p) (hk : CodeKeyed p) :
    CodeStep p i request e q := by
  have hpermit := h.permit
  have heffect := h.codes
  generalize htable : (store q).codes = t' at heffect
  cases heffect with
  | @put record value raw =>
    have hissues : IssuesCode config request (p.own i) record := hpermit
    obtain ⟨value', hraw, hdrew⟩ := hissues.code
    obtain rfl : value' = value := Option.some.inj (hraw.symm.trans raw)
    exact .put record value' raw hissues (unkeyed_code hs hk (.ofToken hdrew) hissues.first) rfl
      htable
  | @take presented code found unused => exact .take presented code found unused rfl htable
  | same unchanged => exact .same unchanged htable

theorem CodeStep.row (h : CodeStep p i request e q) (hc : (store q).codes.lookup k = some c) :
    (∃ c₀, (store p).codes.lookup k = some c₀ ∧ c₀.Ages c) ∨
    ∃ record value, e = ⟨.store (.putAuthorizationCode record), .ok ()⟩ ∧
      IssuesCode config request (p.own i) record ∧ record.code = some value ∧
      config.host.tokenHash value = k ∧ c = storedCode p.world.clock record := by
  cases h with
  | put record value raw issues _ event table =>
    rw [table, Table.lookup_insert_ite] at hc
    split at hc
    · rename_i hkey
      cases hc
      exact .inr ⟨record, value, event, issues, raw, hkey.symm, rfl⟩
    · exact .inl ⟨c, hc, .refl c⟩
  | take _ code found unused _ table =>
    rw [table, Table.lookup_insert_ite] at hc
    split at hc
    · rename_i hkey
      cases hc
      exact .inl ⟨code, hkey ▸ found, rfl, fun hused => absurd unused hused⟩
    · exact .inl ⟨c, hc, .refl c⟩
  | same _ table => exact .inl ⟨c, table ▸ hc, .refl c⟩

theorem CodeStep.grows (h : CodeStep p i request e q) (hc : (store p).codes.lookup k = some c) :
    ∃ c', (store q).codes.lookup k = some c' ∧ c.Ages c' := by
  cases h with
  | put _ _ _ _ unkeyed _ table =>
    refine ⟨c, ?_, .refl c⟩
    rw [table, Table.lookup_insert_ite, if_neg, hc]
    rintro rfl
    rw [unkeyed] at hc
    cases hc
  | take _ _ found unused _ table =>
    rw [table, Table.lookup_insert_ite]
    split
    · rename_i hkey
      subst hkey
      rw [found] at hc
      cases hc
      exact ⟨_, rfl, rfl, fun hused => absurd unused hused⟩
    · exact ⟨c, hc, .refl c⟩
  | same _ table => exact ⟨c, table ▸ hc, .refl c⟩

/-! ## Answers of the store -/

section Answers

variable {hash : String → String} {now : DateTime} {fresh token : String} {s s' : StoreEts}

theorem getRefreshToken_ok
    (h : StoreEts.getRefreshToken hash now token s = .ok r) :
    s.refreshTokens.lookup (hash token) = some r ∧ r.usable now = true := by
  unfold StoreEts.getRefreshToken at h
  split at h
  · split at h
    · cases h
      exact ⟨‹_›, ‹_›⟩
    · cases h
  · cases h

theorem getRefreshToken_error {reason : StoreError Unit}
    (h : StoreEts.getRefreshToken hash now token s = .error reason) :
    s.refreshTokens.lookup (hash token) = none ∨
      ∃ r, s.refreshTokens.lookup (hash token) = some r ∧ r.usable now = false := by
  unfold StoreEts.getRefreshToken at h
  split at h
  · split at h
    · cases h
    · exact .inr ⟨_, ‹_›, eq_false_of_ne_true ‹_›⟩
  · exact .inl ‹_›

theorem rotateRefreshToken_error {new : RefreshToken} {reason : StoreError RefreshToken}
    (hraw : new.token = some value)
    (h : StoreEts.rotateRefreshToken hash now fresh token new s = (.error reason, s')) :
    s' = s ∧ (s.refreshTokens.lookup (hash token) = none ∨
      ∃ old, s.refreshTokens.lookup (hash token) = some old ∧
        (old.revokedAt ≠ none ∨ expired now old.expiresAt = true ∨
          (reason = .replayed old ∧ old.rotatedAt ≠ none))) := by
  simp only [StoreEts.rotateRefreshToken, hraw] at h
  split at h
  · cases h
    exact ⟨rfl, .inl ‹_›⟩
  · rename_i old hfound
    split at h
    · rename_i hrevoked
      cases h
      exact ⟨rfl, .inr ⟨old, hfound, .inl (Option.isSome_iff_ne_none.mp hrevoked)⟩⟩
    · split at h
      · rename_i hexpired
        cases h
        exact ⟨rfl, .inr ⟨old, hfound, .inr (.inl hexpired)⟩⟩
      · split at h
        · rename_i hrotated
          cases h
          exact ⟨rfl, .inr ⟨old, hfound,
            .inr (.inr ⟨rfl, Option.isSome_iff_ne_none.mp hrotated⟩)⟩⟩
        · cases h

theorem rotateRefreshToken_replayed {new old : RefreshToken}
    (h : StoreEts.rotateRefreshToken hash now fresh token new s = (.error (.replayed old), s')) :
    s' = s ∧ s.refreshTokens.lookup (hash token) = some old := by
  simp only [StoreEts.rotateRefreshToken] at h
  repeat' split at h
  all_goals
    cases h
  exact ⟨rfl, ‹_›⟩

theorem takeAuthorizationCode_replayed {code : AuthorizationCode}
    (h : StoreEts.takeAuthorizationCode hash now token s = (.error (.replayed code), s')) :
    s' = s ∧ s.codes.lookup (hash token) = some code := by
  simp only [StoreEts.takeAuthorizationCode] at h
  repeat' split at h
  all_goals
    cases h
  exact ⟨rfl, ‹_›⟩

end Answers

/-! ## The tables remember the log -/

/-- `q` has every row of `p`, aged. -/
structure Grown (p q : Server config subjectOf forward) : Prop where
  refresh : ∀ {k r}, (store p).refreshTokens.lookup k = some r →
    ∃ r', (store q).refreshTokens.lookup k = some r' ∧ r.Ages r'
  codes : ∀ {k c}, (store p).codes.lookup k = some c →
    ∃ c', (store q).codes.lookup k = some c' ∧ c.Ages c'

theorem Grown.refl (p : Server config subjectOf forward) : Grown p p :=
  ⟨fun hr => ⟨_, hr, .refl _⟩, fun hc => ⟨_, hc, .refl _⟩⟩

theorem Grown.trans {w : Server config subjectOf forward} (h : Grown p q) (h' : Grown q w) :
    Grown p w := by
  refine ⟨fun hr => ?_, fun hc => ?_⟩
  · obtain ⟨r', hr', hages⟩ := h.refresh hr
    obtain ⟨r'', hr'', hages'⟩ := h'.refresh hr'
    exact ⟨r'', hr'', hages.trans hages'⟩
  · obtain ⟨c', hc', hages⟩ := h.codes hc
    obtain ⟨c'', hc'', hages'⟩ := h'.codes hc'
    exact ⟨c'', hc'', hages.trans hages'⟩

theorem Around.grown (h : Around p q) : Grown p q :=
  ⟨fun hr => ⟨_, h.refresh ▸ hr, .refl _⟩, fun hc => ⟨_, h.codes ▸ hc, .refl _⟩⟩

/-- There is a refresh token under the value, `r` at some later time. -/
def RefreshAt (p : Server config subjectOf forward) (value : String) (r : RefreshToken) : Prop :=
  ∃ r', (store p).refreshTokens.lookup (config.host.tokenHash value) = some r' ∧ r.Ages r'

/-- There is a code under the value, `c` at some later time. -/
def CodeAt (p : Server config subjectOf forward) (value : String) (c : AuthorizationCode) : Prop :=
  ∃ c', (store p).codes.lookup (config.host.tokenHash value) = some c' ∧ c.Ages c'

theorem Grown.refreshAt (h : Grown p q) (hr : RefreshAt p value r) : RefreshAt q value r := by
  obtain ⟨r', hlookup, hages⟩ := hr
  obtain ⟨r'', hlookup', hages'⟩ := h.refresh hlookup
  exact ⟨r'', hlookup', hages.trans hages'⟩

theorem Grown.codeAt (h : Grown p q) (hc : CodeAt p value c) : CodeAt q value c := by
  obtain ⟨c', hlookup, hages⟩ := hc
  obtain ⟨c'', hlookup', hages'⟩ := h.codes hlookup
  exact ⟨c'', hlookup', hages.trans hages'⟩

/-- What the tables remember of an event. -/
def Remembers (p : Server config subjectOf forward) (e : ServerEvent) : Prop :=
  match e with
  | ⟨.store (.putRefreshToken token), .ok _⟩ => ∃ now fresh value, token.token = some value ∧
      RefreshAt p value (storedRefresh now fresh token)
  | ⟨.store (.rotateRefreshToken presented new), .ok old⟩ => ∃ now fresh value,
      new.token = some value ∧ RefreshAt p presented (StoreEts.retired now fresh old new) ∧
      RefreshAt p value (StoreEts.successor now fresh old new)
  | ⟨.store (.rotateRefreshToken presented _), .error (.replayed old)⟩ => RefreshAt p presented old
  | ⟨.store (.getRefreshToken token), .ok record⟩ => RefreshAt p token record
  | ⟨.store (.takeAuthorizationCode code), .ok record⟩ => ∃ now,
      CodeAt p code { record with usedAt := some now }
  | ⟨.store (.takeAuthorizationCode code), .error (.replayed record)⟩ => CodeAt p code record
  | _ => True

theorem Remembers.mono (h : Grown p q) (hr : Remembers p e) : Remembers q e := by
  unfold Remembers at hr ⊢
  split
  · obtain ⟨now, fresh, value, hraw, hat⟩ := hr
    exact ⟨now, fresh, value, hraw, h.refreshAt hat⟩
  · obtain ⟨now, fresh, value, hraw, hold, hnew⟩ := hr
    exact ⟨now, fresh, value, hraw, h.refreshAt hold, h.refreshAt hnew⟩
  · exact h.refreshAt hr
  · exact h.refreshAt hr
  · obtain ⟨now, hat⟩ := hr
    exact ⟨now, h.codeAt hat⟩
  · exact h.codeAt hr
  · trivial

/-- The tables remember the event of the step just made. -/
theorem Ran.remembers (h : Ran p i request e q) (hr : RefreshStep p i request e q)
    (hc : CodeStep p i request e q) : Remembers q e := by
  unfold Remembers
  split
  · cases hr with
    | put _ value fresh raw _ _ event table =>
      cases event
      exact ⟨_, fresh, value, raw, _, by rw [table, AList.lookup_insert], .refl _⟩
    | rotate _ _ _ _ _ _ _ _ _ _ _ _ event | revoke _ event => cases event
    | same unchanged => cases unchanged
  · cases hr with
    | put _ _ _ _ _ _ event => cases event
    | rotate _ value fresh _ _ raw _ unkeyed found _ _ _ event table =>
      cases event
      refine ⟨_, fresh, value, raw, ⟨_, by rw [table, AList.lookup_insert], .refl _⟩,
        _, ?_, .refl _⟩
      rw [table, AList.lookup_insert_ne, AList.lookup_insert]
      intro heq
      rw [heq, found] at unkeyed
      cases unkeyed
    | revoke _ event => cases event
    | same unchanged => cases unchanged
  · obtain ⟨fresh, hperf⟩ := h.answer _ _ rfl
    obtain ⟨hstore, hfound⟩ := rotateRefreshToken_replayed hperf
    exact ⟨_, by rw [hstore]; exact hfound, .refl _⟩
  · obtain ⟨fresh, hperf⟩ := h.answer _ _ rfl
    obtain ⟨hget, hstore⟩ := Prod.mk.inj hperf
    exact ⟨_, by rw [← hstore]; exact (getRefreshToken_ok hget).1, .refl _⟩
  · cases hc with
    | put _ _ _ _ _ event => cases event
    | take _ _ _ _ event table =>
      cases event
      exact ⟨_, _, by rw [table, AList.lookup_insert], .refl _⟩
    | same unchanged => cases unchanged
  · obtain ⟨fresh, hperf⟩ := h.answer _ _ rfl
    obtain ⟨hstore, hfound⟩ := takeAuthorizationCode_replayed hperf
    exact ⟨_, by rw [hstore]; exact hfound, .refl _⟩
  · trivial

/-! ## The invariant -/

/-- What holds of every state of the server, whatever its clock does. -/
structure Sound (p : Server config subjectOf forward) : Prop where
  coherent : Service.Coherent (Deployment.ets config subjectOf forward).service p
  secrets : Secrets p
  refreshKeyed : RefreshKeyed p
  codeKeyed : CodeKeyed p
  memory : ∀ {i e}, (i, e) ∈ p.log → Remembers p e
  redeemer : ∀ {i j code code' record record'},
    (i, ⟨.store (.takeAuthorizationCode code), .ok record⟩) ∈ p.log →
    (j, ⟨.store (.takeAuthorizationCode code'), .ok record'⟩) ∈ p.log →
    config.host.tokenHash code = config.host.tokenHash code' → i = j
  founded : ∀ {k r}, (store p).refreshTokens.lookup k = some r → ∃ i token,
    (i, ⟨.store (.putRefreshToken token), .ok ()⟩) ∈ p.log ∧
      token.familyId = r.familyId

namespace Sound

section

variable (hp : Sound p)

include hp

/-- Every logged operation was permitted on earlier events of its request. -/
theorem logged (he : (i, e) ∈ p.log) : ∃ request before, p.Serves i request ∧
    (∀ e' ∈ before, (i, e') ∈ p.log) ∧ Permit config request before e.op :=
  hp.coherent.logged (Deployment.handler_spec (Deployment.ets config subjectOf forward)) he

theorem refreshStep (h : Ran p i request e q) : RefreshStep p i request e q :=
  h.refreshStep hp.secrets hp.refreshKeyed

theorem codeStep (h : Ran p i request e q) : CodeStep p i request e q :=
  h.codeStep hp.secrets hp.codeKeyed

theorem grown (h : Ran p i request e q) : Grown p q :=
  ⟨(hp.refreshStep h).grows, (hp.codeStep h).grows⟩

/-- A redeemed code is used and stays so. -/
theorem used {code : String} {record : AuthorizationCode}
    (h : (i, ⟨.store (.takeAuthorizationCode code), .ok record⟩) ∈ p.log) :
    ∃ c, (store p).codes.lookup (config.host.tokenHash code) = some c ∧ c.usedAt ≠ none := by
  obtain ⟨now, c, hlookup, hages⟩ := hp.memory h
  exact ⟨c, hlookup, hages.used (by simp)⟩

theorem refreshKeyed_ran (h : Ran p i request e q) : RefreshKeyed q := by
  intro k r hr
  -- a new row is keyed by the value its own request drew
  have hnew : ∀ {record : RefreshToken} {value : String}, FreshRefresh (p.own i) record →
      record.token = some value → config.host.tokenHash value = k →
      refreshStored e = some value → ∃ i value e, config.host.tokenHash value = k ∧
        Drew q i value ∧ (i, e) ∈ q.log ∧ refreshStored e = some value := by
    intro record value hfresh hraw hkey hstored
    obtain ⟨value', hraw', hdrew⟩ := hfresh.token
    obtain rfl : value' = value := Option.some.inj (hraw'.symm.trans hraw)
    exact ⟨i, value', e, hkey, h.drew.mpr (.inl (.ofToken hdrew)),
      h.mem_log.mpr (.inr ⟨rfl, rfl⟩), hstored⟩
  cases (hp.refreshStep h).origin hr with
  | aged r₀ found =>
    obtain ⟨j, value, e', hkey, hdrew, he', hstored⟩ := hp.refreshKeyed k r₀ found
    exact ⟨j, value, e', hkey, h.drew.mpr (.inl hdrew), h.log_mono he', hstored⟩
  | first token value fresh event hfresh raw key
  | successor _ _ _ _ _ event hfresh raw _ _ key =>
    exact hnew hfresh.toFreshRefresh raw key (by rw [event]; exact raw)

theorem codeKeyed_ran (h : Ran p i request e q) : CodeKeyed q := by
  intro k c hc
  rcases (hp.codeStep h).row hc with ⟨c₀, hc₀, hages⟩ |
      ⟨record, value, rfl, hissues, hraw, hkey, rfl⟩
  · obtain ⟨j, value, family, record, hkey, hdrew, hraw, hfam, hrec, hrow, he⟩ :=
      hp.codeKeyed k c₀ hc₀
    exact ⟨j, value, family, record, hkey, h.drew.mpr (.inl hdrew), hraw,
      h.drew.mpr (.inl hfam), hrec, hages.refreshFamilyId.trans hrow, h.log_mono he⟩
  · obtain ⟨value', hraw', hdrew⟩ := hissues.code
    obtain rfl : value' = value := Option.some.inj (hraw'.symm.trans hraw)
    obtain ⟨family, hfamily, hfam⟩ := hissues.family
    exact ⟨i, value', family, record, hkey, h.drew.mpr (.inl (.ofToken hdrew)), hraw,
      h.drew.mpr (.inl (.ofId hfam)), hfamily, hfamily, h.mem_log.mpr (.inr ⟨rfl, rfl⟩)⟩

theorem memory_ran (h : Ran p i request e q) {e' : ServerEvent} (he : (j, e') ∈ q.log) :
    Remembers q e' := by
  rcases h.mem_log.mp he with he | ⟨-, rfl⟩
  · exact (hp.memory he).mono (hp.grown h)
  · exact h.remembers (hp.refreshStep h) (hp.codeStep h)

/-- A code that was redeemed is not redeemed again. -/
theorem redeemed_once {code code' : String} {record record' : AuthorizationCode}
    (h : Ran p i request ⟨.store (.takeAuthorizationCode code), .ok record⟩ q)
    (he : (j, ⟨.store (.takeAuthorizationCode code'), .ok record'⟩) ∈ p.log) :
    config.host.tokenHash code ≠ config.host.tokenHash code' := by
  intro heq
  obtain ⟨c, hlookup, hused⟩ := hp.used he
  cases hp.codeStep h with
  | put _ _ _ _ _ event => cases event
  | take _ _ found unused event =>
    cases event
    rw [heq, hlookup] at found
    cases found
    exact hused unused
  | same unchanged => cases unchanged

theorem founded_ran (h : Ran p i request e q) (hr : (store q).refreshTokens.lookup k = some r) :
    ∃ j token,
      (j, ⟨.store (.putRefreshToken token), .ok ()⟩) ∈ q.log ∧
        token.familyId = r.familyId := by
  cases (hp.refreshStep h).origin hr with
  | aged _ found step =>
    obtain ⟨j, token, he, hfamily⟩ := hp.founded found
    exact ⟨j, token, h.log_mono he, hfamily.trans step.ages.familyId.symm⟩
  | first token _ _ event _ _ _ row =>
    subst row
    exact ⟨i, token, h.mem_log.mpr (.inr ⟨rfl, event.symm⟩), rfl⟩
  | successor _ _ _ _ _ _ _ _ found _ _ row =>
    subst row
    obtain ⟨j, token, he, hfamily⟩ := hp.founded found
    exact ⟨j, token, h.log_mono he, hfamily⟩

theorem ran (h : Ran p i request e q)
    (hcoherent : Service.Coherent (Deployment.ets config subjectOf forward).service q) :
    Sound q where
  coherent := hcoherent
  secrets := hp.secrets.ran h
  refreshKeyed := hp.refreshKeyed_ran h
  codeKeyed := hp.codeKeyed_ran h
  memory := hp.memory_ran h
  redeemer := by
    intro i₁ i₂ code code' record record' h₁ h₂ heq
    rcases h.mem_log.mp h₁ with h₁ | ⟨rfl, rfl⟩ <;> rcases h.mem_log.mp h₂ with h₂ | ⟨rfl, he⟩
    · exact hp.redeemer h₁ h₂ heq
    · subst he
      exact absurd heq.symm (hp.redeemed_once h h₁)
    · exact absurd heq (hp.redeemed_once h h₂)
    · rfl
  founded := hp.founded_ran h

theorem around (h : Around p q)
    (hcoherent : Service.Coherent (Deployment.ets config subjectOf forward).service q) :
    Sound q where
  coherent := hcoherent
  secrets := hp.secrets.around h
  refreshKeyed := by simpa only [RefreshKeyed, h.refresh, h.drew, h.log] using hp.refreshKeyed
  codeKeyed := by simpa only [CodeKeyed, h.codes, h.drew, h.log] using hp.codeKeyed
  memory := by
    intro i e he
    exact (hp.memory (h.log ▸ he)).mono h.grown
  redeemer := by
    intro i j code code' record record' h₁ h₂
    exact hp.redeemer (h.log ▸ h₁) (h.log ▸ h₂)
  founded := by
    intro k r hr
    obtain ⟨i, token, he, hfamily⟩ := hp.founded (h.refresh ▸ hr)
    exact ⟨i, token, h.log ▸ he, hfamily⟩

theorem step {a : Action Request Choice Move}
    (h : (Deployment.ets config subjectOf forward).service.step p a = some q) : Sound q := by
  have hcoherent := hp.coherent.step h
  rcases step_cases hp.coherent h with ⟨i, request, e, -, hran⟩ | ⟨-, haround⟩
  · exact hp.ran hran hcoherent
  · exact hp.around haround hcoherent

end

theorem initial (now : DateTime) :
    Sound ((Deployment.ets config subjectOf forward).initial now) where
  coherent := Service.coherent_idle _
  secrets := by
    constructor
    · rintro i j v u ⟨e, he, -⟩
      cases he
    · rintro i request s ⟨prog, hi⟩
      simp [Deployment.initial, Pool.idle] at hi
  refreshKeyed := by
    intro k r hr
    cases hr
  codeKeyed := by
    intro k c hc
    cases hc
  memory := by
    intro i e he
    cases he
  redeemer := by
    intro i j code code' record record' he
    cases he
  founded := by
    intro k r hr
    cases hr

end Sound

/-! ## Families and their founders -/

/-- A family stands on one code. -/
theorem Sound.family_code (hp : Sound p) {k₁ k₂ : String} {c₁ c₂ : AuthorizationCode}
    (h₁ : (store p).codes.lookup k₁ = some c₁) (h₂ : (store p).codes.lookup k₂ = some c₂)
    (hfamily : c₁.refreshFamilyId = c₂.refreshFamilyId) : k₁ = k₂ := by
  obtain ⟨i₁, value₁, family₁, record₁, hkey₁, -, hraw₁, hdrew₁, -, hrow₁, he₁⟩ :=
    hp.codeKeyed _ _ h₁
  obtain ⟨i₂, value₂, family₂, record₂, hkey₂, -, hraw₂, hdrew₂, -, hrow₂, he₂⟩ :=
    hp.codeKeyed _ _ h₂
  obtain rfl : family₁ = family₂ := Option.some.inj (hrow₁.symm.trans (hfamily.trans hrow₂))
  obtain ⟨rfl, -⟩ := hp.secrets.distinct hdrew₁ hdrew₂ rfl
  -- one request stores at most one code
  have hsame := hp.coherent.unique (Deployment.handler_spec _)
    (B := fun op => op.storesCode = true) (fun req tr op hpermit hop e he => ?_) he₁ he₂ rfl rfl
  · cases hsame
    rw [← hkey₁, ← hkey₂, Option.some.inj (hraw₁.symm.trans hraw₂)]
  · cases op with
    | store call =>
      cases call with
      | putAuthorizationCode record =>
        have hissues : IssuesCode config req tr record := hpermit
        simp [hissues.first e he]
      | _ => cases hop
    | _ => cases hop

/-- The first token of a family was minted from the code the request redeemed,
and the code carries the family. -/
theorem Sound.founder (hp : Sound p) {tr : List ServerEvent} (hmints : MintsFirst tr token)
    (hsub : ∀ e ∈ tr, (i, e) ∈ p.log) :
    ∃ code source, (i, ⟨.store (.takeAuthorizationCode code), .ok source⟩) ∈ p.log ∧
      source.refreshFamilyId = some token.familyId ∧ token.clientId = source.clientId ∧
      token.subject = source.subject ∧ token.scope = source.scope ∧
      token.resource = source.resource := by
  obtain ⟨code, source, htook, hclient, hsubject, hscope, hresource, hfamily⟩ := hmints.code
  have he := hsub _ htook
  refine ⟨code, source, he, ?_, hclient, hsubject, hscope, hresource⟩
  rcases hfamily with hnone | hsome
  · obtain ⟨now, c, hlookup, hages⟩ := hp.memory he
    obtain ⟨-, -, family, -, -, -, -, -, -, hrow, -⟩ := hp.codeKeyed _ _ hlookup
    have hsource : c.refreshFamilyId = source.refreshFamilyId := hages.refreshFamilyId
    rw [hrow, hnone] at hsource
    cases hsource
  · exact hsome

/-- The requests that put tokens of one family are one request. -/
theorem Sound.founder_unique (hp : Sound p) {code₁ code₂ : String}
    {source₁ source₂ : AuthorizationCode}
    (h₁ : (i, ⟨.store (.takeAuthorizationCode code₁), .ok source₁⟩) ∈ p.log)
    (h₂ : (j, ⟨.store (.takeAuthorizationCode code₂), .ok source₂⟩) ∈ p.log)
    (hfamily : source₁.refreshFamilyId = source₂.refreshFamilyId) : i = j := by
  obtain ⟨now₁, c₁, hlookup₁, hages₁⟩ := hp.memory h₁
  obtain ⟨now₂, c₂, hlookup₂, hages₂⟩ := hp.memory h₂
  refine hp.redeemer h₁ h₂ (hp.family_code hlookup₁ hlookup₂ ?_)
  exact hages₁.refreshFamilyId.trans (hfamily.trans hages₂.refreshFamilyId.symm)

/-- A family has no token yet when its first token is put. -/
theorem Sound.family_empty (hp : Sound p) (h : MintsFirst (p.own i) token)
    (hr : (store p).refreshTokens.lookup k = some r) : r.familyId ≠ token.familyId := by
  intro heq
  obtain ⟨j, token', hput, hfamily'⟩ := hp.founded hr
  obtain ⟨_, before, -, hsub, hmints'⟩ := hp.logged hput
  obtain ⟨code, source, htook, hfamily, -⟩ := hp.founder h fun e he => Pool.mem_own.mp he
  obtain ⟨code', source', htook', hsource', -⟩ := hp.founder hmints' hsub
  have hij : i = j := hp.founder_unique htook htook' (by rw [hfamily, hsource', hfamily', heq])
  subst hij
  cases h.first _ (Pool.mem_own.mpr hput)

/-! ## Dead families -/

/-- Every token of the family is revoked. -/
def Dead (p : Server config subjectOf forward) (family : String) : Prop :=
  ∀ k r, (store p).refreshTokens.lookup k = some r → r.familyId = family → r.revokedAt ≠ none

theorem Dead.unusable (h : Dead p family) (hr : (store p).refreshTokens.lookup k = some r)
    (hfamily : r.familyId = family) (now : DateTime) : r.usable now = false := by
  have hrevoked := h k r hr hfamily
  rw [← Bool.not_eq_true, RefreshToken.usable_iff]
  exact fun husable => hrevoked husable.1

/-- A dead family stays dead unless its first token is put now: a rotation needs a
token that is not revoked. -/
theorem Dead.ran (hp : Sound p) (hd : Dead p family) (h : Ran p i request e q)
    (hput : ∀ token, e = ⟨.store (.putRefreshToken token), .ok ()⟩ → token.familyId ≠ family) :
    Dead q family := by
  intro k r hr hfamily
  cases (hp.refreshStep h).origin hr with
  | aged r₀ found step =>
    exact step.ages.revoked (hd k r₀ found (step.ages.familyId.symm.trans hfamily))
  | first token _ _ event _ _ _ row =>
    subst row
    exact absurd hfamily (hput token event)
  | successor _ _ _ _ _ _ _ _ found live _ row =>
    subst row
    exact absurd live (hd _ _ found hfamily)

theorem Dead.around (hd : Dead p family) (h : Around p q) : Dead q family :=
  fun k r hr => hd k r (h.refresh ▸ hr)

/-- A family revocation leaves the family dead. -/
theorem dead_of_revoke (hp : Sound p)
    (h : Ran p i request ⟨.store (.revokeRefreshFamily family), done⟩ q) : Dead q family := by
  intro k r hr hfamily
  cases hp.refreshStep h with
  | put _ _ _ _ _ _ event | rotate _ _ _ _ _ _ _ _ _ _ _ _ event => cases event
  | revoke _ event table =>
    cases event
    rw [table, Table.lookup_mapRows, Option.map_eq_some_iff] at hr
    obtain ⟨r₀, -, rfl⟩ := hr
    have hfamily₀ : r₀.familyId = family :=
      (RefreshToken.Ages.revokeRow _ _ r₀).familyId.symm.trans hfamily
    cases hrevoked : r₀.revokedAt with
    | none => simp [StoreEts.revokeRow, hfamily₀, hrevoked]
    | some => simp [StoreEts.revokeRow, hrevoked]
  | same unchanged => cases unchanged

/-- A family is revoked by a request that has redeemed a code or presented a token. -/
theorem Sound.revoked_for_cause (hp : Sound p)
    (h : (i, ⟨.store (.revokeRefreshFamily family), done⟩) ∈ p.log) :
    ∃ e, (i, e) ∈ p.log ∧ e.op.minor = false := by
  obtain ⟨req, before, -, hsub, hblamed⟩ := hp.logged h
  cases (hblamed : Blamed req before family) with
  | replayed reported _ | reused reported _ => exact ⟨_, hsub _ reported, rfl⟩
  | unbound took => exact ⟨_, hsub _ took, rfl⟩
  | revoked got => exact ⟨_, hsub _ got, rfl⟩

/-! ## Along a run -/

/-- The step rule beside `Sound`: one case for an operation of a request, one for
everything around the requests. -/
theorem Sound.invariant {C : Server config subjectOf forward → Action Request Choice Move → Prop}
    (Inv : Server config subjectOf forward → Prop)
    (hran : ∀ {x y i request e choice}, Sound x → Inv x → C x (.run i choice) →
      Ran x i request e y → Inv y)
    (haround : ∀ {x y}, Sound x → Inv x → Around x y → Inv y)
    (h : (Deployment.ets config subjectOf forward).service.ReachUnder C p q) (hp : Sound p)
    (h₀ : Inv p) : Sound q ∧ Inv q := by
  refine h.invariant (fun x => Sound x ∧ Inv x) ?_ ⟨hp, h₀⟩
  rintro x a y ⟨hx, hinv⟩ hC hs
  refine ⟨hx.step hs, ?_⟩
  rcases step_cases hx.coherent hs with ⟨i, request, e, ⟨choice, rfl⟩, h⟩ | ⟨-, h⟩
  · exact hran hx hinv hC h
  · exact haround hx hinv h

theorem sound_of_reachable (h : (Deployment.ets config subjectOf forward).Reachable p) :
    Sound p := by
  obtain ⟨now, hreach⟩ := h
  exact hreach.invariant Sound (fun _ _ _ hp _ hs => hp.step hs) (.initial now)

/-- `q` is a later state than `p`. -/
structure Later (p q : Server config subjectOf forward) : Prop where
  grown : Grown p q
  log : ∀ {x}, x ∈ p.log → x ∈ q.log
  serves : ∀ {i request}, p.Serves i request → q.Serves i request
  clock : forward = true → p.world.clock ≤ q.world.clock

theorem Later.refl (p : Server config subjectOf forward) : Later p p :=
  ⟨.refl p, fun h => h, fun h => h, fun _ => Int.le_refl _⟩

theorem Later.ran (h : Later p x) (hx : Sound x) (hran : Ran x i request e y) : Later p y := by
  refine ⟨h.grown.trans (hx.grown hran), fun hmem => hran.log_mono (h.log hmem),
    fun hserves => hran.serves.mpr (h.serves hserves), fun hf => ?_⟩
  rw [hran.clock]
  exact h.clock hf

theorem Later.around (h : Later p x) (haround : Around x y) : Later p y :=
  ⟨h.grown.trans haround.grown, fun hmem => haround.log ▸ h.log hmem,
    fun hserves => haround.serves_mono (h.serves hserves),
    fun hf => Int.le_trans (h.clock hf) (haround.clock hf)⟩

theorem later_of_reach (hp : Sound p)
    (h : (Deployment.ets config subjectOf forward).service.Reach p q) : Sound q ∧ Later p q :=
  Sound.invariant (Later p) (fun hx hlater _ hran => hlater.ran hx hran)
    (fun _ hlater haround => hlater.around haround) h hp (.refl p)

/-- A dead family that has tokens stays dead. -/
theorem Dead.later (hp : Sound p) (hd : Dead p family)
    (hr : (store p).refreshTokens.lookup k = some r) (hfamily : r.familyId = family)
    (h : (Deployment.ets config subjectOf forward).service.Reach p q) : Dead q family := by
  refine (Sound.invariant (fun x => Dead x family ∧ ∃ k r,
    (store x).refreshTokens.lookup k = some r ∧ r.familyId = family) ?_ ?_ h hp
      ⟨hd, k, r, hr, hfamily⟩).2.1
  · rintro x y i request e choice hx ⟨hdead, k, r, hr, hfamily⟩ _ hran
    obtain ⟨r', hr', hages⟩ := (hx.grown hran).refresh hr
    refine ⟨hdead.ran hx hran fun token he => ?_, k, r', hr', hages.familyId.trans hfamily⟩
    subst he
    have hmints : MintsFirst (x.own i) token := hran.permit
    exact fun heq => hx.family_empty hmints hr (hfamily.trans heq.symm)
  · rintro x y _ ⟨hdead, k, r, hr, hfamily⟩ haround
    exact ⟨hdead.around haround, k, r, haround.refresh ▸ hr, hfamily⟩

end EtsRuns

end NoizuMcp.Auth
