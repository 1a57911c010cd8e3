import NoizuMcp.Auth.AuthorizeTraces
import NoizuMcp.Auth.StoreEts

/-!
# The server over the in-memory store: what a step does

One inversion for every invariant of the runs. A step of the server either runs
one operation of one request (`Ran`) or moves the world around the requests
(`Around`). For an operation, each table of the store changes in one of a few
named ways (`RefreshEffect`, `CodeEffect`, `LoginEffect`, `ConsentEffect`), and
the request's own trace meets `Permit`.
-/

set_option autoImplicit false

namespace NoizuMcp.Auth

open Foundation Protocol

/-- A server over the in-memory store. -/
def Deployment.ets (config : Config) (subjectOf : Nat → String) (forward : Bool) : Deployment where
  config := config
  adapter := StoreEts.adapter config.host.tokenHash
  subjectOf := subjectOf
  forward := forward

namespace EtsRuns

variable {config : Config} {subjectOf : Nat → String} {forward : Bool}

/-- The server with its requests in service. -/
abbrev Server (config : Config) (subjectOf : Nat → String) (forward : Bool) :=
  (Deployment.ets config subjectOf forward).Server

/-- The tables of a server state. -/
def store (p : Server config subjectOf forward) : StoreEts := p.world.store

/-! ## Effects on the tables -/

/-- The row a put of a refresh token stores. -/
def storedRefresh (now : DateTime) (fresh : String) (token : RefreshToken) : RefreshToken :=
  { token with
    token := none, id := token.id.or (some fresh), insertedAt := token.insertedAt.or (some now) }

/-- The row a put of a code stores. -/
def storedCode (now : DateTime) (code : AuthorizationCode) : AuthorizationCode :=
  { code with code := none, insertedAt := code.insertedAt.or (some now) }

/-- The event changes the table of refresh tokens. -/
def changesRefresh : ServerEvent → Bool
  | ⟨.store (.putRefreshToken _), .ok _⟩ => true
  | ⟨.store (.rotateRefreshToken _ _), .ok _⟩ => true
  | ⟨.store (.revokeRefreshFamily _), _⟩ => true
  | _ => false

/-- What an event does to the refresh tokens. -/
inductive RefreshEffect (hash : String → String) (now : DateTime)
    (t : Table String RefreshToken) : ServerEvent → Table String RefreshToken → Prop where
  | put {token : RefreshToken} {value fresh : String} (raw : token.token = some value) :
      RefreshEffect hash now t ⟨.store (.putRefreshToken token), .ok ()⟩
        (t.insert (hash value) (storedRefresh now fresh token))
  | rotate {presented value fresh : String} {new old : RefreshToken}
      (raw : new.token = some value) (found : t.lookup (hash presented) = some old)
      (live : old.revokedAt = none) (unexpired : expired now old.expiresAt = false)
      (unrotated : old.rotatedAt = none) :
      RefreshEffect hash now t ⟨.store (.rotateRefreshToken presented new), .ok old⟩
        ((t.insert (hash value) (StoreEts.successor now fresh old new)).insert (hash presented)
          (StoreEts.retired now fresh old new))
  | revoke {family : String} :
      RefreshEffect hash now t ⟨.store (.revokeRefreshFamily family), .ok ()⟩
        (Table.mapRows (StoreEts.revokeRow now fun t => t.familyId == family) t)
  | same {e : ServerEvent} (unchanged : changesRefresh e = false) : RefreshEffect hash now t e t

/-- The event changes the table of codes. -/
def changesCodes : ServerEvent → Bool
  | ⟨.store (.putAuthorizationCode _), .ok _⟩ => true
  | ⟨.store (.takeAuthorizationCode _), .ok _⟩ => true
  | _ => false

/-- What an event does to the authorization codes. -/
inductive CodeEffect (hash : String → String) (now : DateTime)
    (t : Table String AuthorizationCode) : ServerEvent → Table String AuthorizationCode → Prop where
  | put {code : AuthorizationCode} {value : String} (raw : code.code = some value) :
      CodeEffect hash now t ⟨.store (.putAuthorizationCode code), .ok ()⟩
        (t.insert (hash value) (storedCode now code))
  | take {presented : String} {code : AuthorizationCode}
      (found : t.lookup (hash presented) = some code) (unused : code.usedAt = none) :
      CodeEffect hash now t ⟨.store (.takeAuthorizationCode presented), .ok code⟩
        (t.insert (hash presented) { code with usedAt := some now })
  | same {e : ServerEvent} (unchanged : changesCodes e = false) : CodeEffect hash now t e t

/-- The event changes the table of login states. -/
def changesLogins : ServerEvent → Bool
  | ⟨.store (.putLoginState _ _ _), _⟩ => true
  | ⟨.store (.updateLoginState _ _), .ok _⟩ => true
  | ⟨.store (.takeLoginState _), _⟩ => true
  | _ => false

/-- What an event does to the login states. -/
inductive LoginEffect (hash : String → String) (now : DateTime) (t : Table String LoginState) :
    ServerEvent → Table String LoginState → Prop where
  | put {state : String} {payload : Payload} {ttl : Nat} :
      LoginEffect hash now t ⟨.store (.putLoginState state payload ttl), .ok ()⟩
        (t.insert (hash state) ⟨payload, now.addSeconds ttl⟩)
  | update {state : String} {changes : Payload} {record : LoginState}
      (found : t.lookup (hash state) = some record) :
      LoginEffect hash now t
        ⟨.store (.updateLoginState state changes), .ok (changes ∪ record.payload)⟩
        (t.insert (hash state) { record with payload := changes ∪ record.payload })
  | take {state : String} {answer : Except (StoreError Unit) Payload} :
      LoginEffect hash now t ⟨.store (.takeLoginState state), answer⟩ (t.erase (hash state))
  | same {e : ServerEvent} (unchanged : changesLogins e = false) : LoginEffect hash now t e t

/-- What an event does to the consents. -/
inductive ConsentEffect (now : DateTime) (t : Table (String × String) Consent) :
    ServerEvent → Table (String × String) Consent → Prop where
  | put {consent : Consent} :
      ConsentEffect now t ⟨.store (.putConsent consent), .ok ()⟩
        (t.insert (consent.subject, consent.clientId)
          { consent with grantedAt := consent.grantedAt.or (some now) })
  | same {e : ServerEvent} : ConsentEffect now t e t

/-! ## The inversion -/

section Performed

variable {hash : String → String} {now : DateTime} {fresh : String} {call : StoreCall}
  {s s' : StoreEts} {answer : call.Answer} {tr : List ServerEvent} {request : Request}

theorem erase_of_lookup_none {κ α : Type} [DecidableEq κ] {t : Table κ α} {k : κ}
    (h : t.lookup k = none) : t.erase k = t := by
  have hk : k ∉ t := AList.lookup_eq_none.mp h
  exact AList.ext (List.kerase_of_notMem_keys hk)

variable (h : StoreEts.perform hash now fresh call s = (answer, s'))
  (hp : PermitCall config request tr call)

include h hp

/-- A call that does not change a table leaves it as it is. -/
theorem frame :
    (changesRefresh ⟨.store call, answer⟩ = false → s'.refreshTokens = s.refreshTokens) ∧
      (changesCodes ⟨.store call, answer⟩ = false → s'.codes = s.codes) ∧
      (changesLogins ⟨.store call, answer⟩ = false → s'.loginStates = s.loginStates) ∧
      ((∀ consent, call ≠ .putConsent consent) → s'.consents = s.consents) := by
  cases call with
  | getClient _ | putClient _ | getLoginState _ | getRefreshToken _ | getConsent _ _
  | putLoginState _ _ _ | putConsent _ | revokeRefreshFamily _ =>
    cases h
    simp [changesRefresh, changesLogins, StoreEts.revokeWhere]
  | updateLoginState _ _ | takeLoginState _ | putAuthorizationCode _ | takeAuthorizationCode _
  | putRefreshToken _ | rotateRefreshToken _ _ | putAccessToken _ | revokeAccessToken _ =>
    simp only [StoreEts.perform, StoreEts.updateLoginState, StoreEts.takeLoginState,
      StoreEts.putAuthorizationCode, StoreEts.takeAuthorizationCode, StoreEts.putRefreshToken,
      StoreEts.rotateRefreshToken, StoreEts.putAccessToken, StoreEts.revokeAccessToken] at h
    repeat' split at h
    all_goals
      cases h
      simp [changesRefresh, changesCodes, changesLogins]
  | _ => exact hp.elim

theorem refreshEffect :
    RefreshEffect hash now s.refreshTokens ⟨.store call, answer⟩ s'.refreshTokens := by
  cases call with
  | putRefreshToken =>
    simp only [StoreEts.perform, StoreEts.putRefreshToken] at h
    split at h
    · cases h
      exact .same rfl
    · cases h
      exact .put ‹_›
  | rotateRefreshToken =>
    simp only [StoreEts.perform, StoreEts.rotateRefreshToken] at h
    split at h
    · cases h
      exact .same rfl
    · rename_i value hraw
      split at h
      · cases h
        exact .same rfl
      · rename_i old hfound
        split at h
        · cases h
          exact .same rfl
        · rename_i hlive
          split at h
          · cases h
            exact .same rfl
          · rename_i hunexpired
            split at h
            · cases h
              exact .same rfl
            · rename_i hunrotated
              cases h
              exact .rotate hraw hfound (by simpa using hlive) (by simpa using hunexpired)
                (by simpa using hunrotated)
  | revokeRefreshFamily =>
    cases h
    exact .revoke
  | _ =>
    rw [(frame h hp).1 rfl]
    exact .same rfl

theorem codeEffect : CodeEffect hash now s.codes ⟨.store call, answer⟩ s'.codes := by
  cases call with
  | putAuthorizationCode =>
    simp only [StoreEts.perform, StoreEts.putAuthorizationCode] at h
    split at h
    · cases h
      exact .same rfl
    · cases h
      exact .put ‹_›
  | takeAuthorizationCode =>
    simp only [StoreEts.perform, StoreEts.takeAuthorizationCode] at h
    split at h
    · cases h
      exact .same rfl
    · rename_i code hfound
      split at h
      · cases h
        exact .same rfl
      · rename_i hunused
        split at h
        · cases h
          exact .same rfl
        · cases h
          exact .take hfound hunused
  | _ =>
    rw [(frame h hp).2.1 rfl]
    exact .same rfl

theorem loginEffect : LoginEffect hash now s.loginStates ⟨.store call, answer⟩ s'.loginStates := by
  cases call with
  | putLoginState =>
    cases h
    exact .put
  | updateLoginState =>
    simp only [StoreEts.perform, StoreEts.updateLoginState] at h
    split at h
    · cases h
      exact .update ‹_›
    · cases h
      exact .same rfl
  | takeLoginState state =>
    simp only [StoreEts.perform, StoreEts.takeLoginState] at h
    split at h
    · split at h
      · cases h
        exact .take
      · cases h
        exact .take
    · rename_i hnone
      cases h
      have htake : LoginEffect hash now s.loginStates
          ⟨.store (.takeLoginState state), .error .notFound⟩
          (s.loginStates.erase (hash state)) := .take
      rwa [erase_of_lookup_none hnone] at htake
  | _ =>
    rw [(frame h hp).2.2.1 rfl]
    exact .same rfl

theorem consentEffect : ConsentEffect now s.consents ⟨.store call, answer⟩ s'.consents := by
  cases call with
  | putConsent =>
    cases h
    exact .put
  | _ =>
    rw [(frame h hp).2.2.2 nofun]
    exact .same

end Performed

/-- Request `i` ran one operation; `e` is the operation with its answer. -/
structure Ran (p : Server config subjectOf forward) (i : Nat) (request : Request)
    (e : ServerEvent) (q : Server config subjectOf forward) : Prop where
  issued : ∃ k, p.threads[i]? = some (request, .call e.op k) ∧
    q.threads = p.threads.set i (request, k e.res)
  permit : Permit config request (p.own i) e.op
  log : q.log = p.log ++ [(i, e)]
  clock : q.world.clock = p.world.clock
  answer : ∀ call answer, e = ⟨.store call, answer⟩ → ∃ fresh,
    StoreEts.perform config.host.tokenHash p.world.clock fresh call (store p) = (answer, store q)
  drawn : ∀ value, Deployment.drawnBy e = some value → Deployment.isFresh p value = true
  login : ∀ state subject, e = ⟨.upstreamAuthenticate state, .ok subject⟩ →
    subject = subjectOf request.sender
  refresh : RefreshEffect config.host.tokenHash p.world.clock (store p).refreshTokens e
    (store q).refreshTokens
  codes : CodeEffect config.host.tokenHash p.world.clock (store p).codes e (store q).codes
  logins : LoginEffect config.host.tokenHash p.world.clock (store p).loginStates e
    (store q).loginStates
  consents : ConsentEffect p.world.clock (store p).consents e (store q).consents

/-- The world moved around the requests: a request arrived, the clock moved, or a
client registered. -/
structure Around (p q : Server config subjectOf forward) : Prop where
  log : q.log = p.log
  threads : q.threads = p.threads ∨ ∃ request, Deployment.admits p request = true ∧
    q.threads = p.threads ++
      [(request, (Deployment.ets config subjectOf forward).handler request)]
  clock : forward = true → p.world.clock ≤ q.world.clock
  refresh : (store q).refreshTokens = (store p).refreshTokens
  codes : (store q).codes = (store p).codes
  logins : (store q).loginStates = (store p).loginStates
  consents : (store q).consents = (store p).consents

section Exec

variable {p : Server config subjectOf forward} {i : Nat} {op : Op} {choice : Choice} {r : op.Res}
  {w : World StoreEts}

theorem exec_drawn (h : Deployment.exec p i op choice = some (r, w)) {value : String}
    (hd : Deployment.drawnBy ⟨op, r⟩ = some value) : Deployment.isFresh p value = true := by
  cases op with
  | generateToken | generateId =>
    simp only [Deployment.exec] at h
    split at h
    · cases h
      cases hd
      assumption
    · cases h
  | _ => cases hd

theorem exec_login {state subject : String} {answer : UpstreamAnswer} {request : Request}
    {k : UpstreamAnswer → ServerM ServerAnswer}
    (h : Deployment.exec p i (.upstreamAuthenticate state) choice = some (answer, w))
    (hthread : p.threads[i]? = some (request, .call (.upstreamAuthenticate state) k))
    (ha : answer = .ok subject) : subject = subjectOf request.sender := by
  subst ha
  simp only [Deployment.exec, hthread] at h
  cases hu : choice.upstream with simp only [hu] at h
  | ok =>
    cases h
    rfl
  | redirect url | sent | error => cases h

end Exec

variable {p q : Server config subjectOf forward} {other value : String} {i j : Nat}
  {request : Request} {e : ServerEvent}

/-- Every step of the server is one of the two. -/
theorem step_cases {a : Action Request Choice Move}
    (hc : Service.Coherent (Deployment.ets config subjectOf forward).service p)
    (h : (Deployment.ets config subjectOf forward).service.step p a = some q) :
    (∃ i request e, (∃ choice, a = .run i choice) ∧ Ran p i request e q) ∨
      ((∀ i choice, a ≠ .run i choice) ∧ Around p q) := by
  rcases Service.step_cases h with ⟨request, rfl, hadmits, rfl⟩ |
    ⟨i, choice, request, op, k, r, w, rfl, hthread, hexec, rfl⟩ | ⟨m, w, rfl, hmove, rfl⟩
  · exact .inr ⟨by simp, ⟨rfl, .inr ⟨request, hadmits, rfl⟩, fun _ => Int.le_refl _, rfl, rfl, rfl,
      rfl⟩⟩
  · have hpermit := hc.next (Deployment.handler_spec _) hthread
    replace hexec : Deployment.exec p i op choice = some (r, w) := hexec
    refine .inl ⟨i, request, ⟨op, r⟩, ⟨choice, rfl⟩, ?_⟩
    by_cases hop : ∃ call, op = .store call
    · obtain ⟨call, rfl⟩ := hop
      have hperf : StoreEts.perform config.host.tokenHash p.world.clock choice.value call
          (store p) = (r, w.store) := by
        cases hexec
        rfl
      have hw : w.clock = p.world.clock := by
        cases hexec
        rfl
      refine ⟨⟨k, hthread, rfl⟩, hpermit, rfl, hw, ?_, fun v hv => exec_drawn hexec hv,
        by simp, refreshEffect hperf hpermit, codeEffect hperf hpermit,
        loginEffect hperf hpermit, consentEffect hperf hpermit⟩
      intro call' answer heq
      cases heq
      exact ⟨choice.value, hperf⟩
    · -- every other operation leaves the world alone
      have hne : ∀ call, op ≠ .store call := fun call heq => hop ⟨call, heq⟩
      obtain rfl := Deployment.exec_world hexec hne
      refine ⟨⟨k, hthread, rfl⟩, hpermit, rfl, rfl, ?_, fun v hv => exec_drawn hexec hv, ?_,
        .same ?_, .same ?_, .same ?_, .same⟩
      · intro call answer heq
        cases heq
        exact absurd rfl (hne call)
      · intro state subject heq
        cases heq
        exact exec_login hexec hthread rfl
      all_goals cases op <;> first | rfl | exact absurd rfl (hne _)
  · refine .inr ⟨by simp, ?_⟩
    cases m with
    | tick =>
      simp only [Deployment.service, Deployment.moves] at hmove
      split at hmove
      · cases hmove
      · rename_i hforward
        cases hmove
        refine ⟨rfl, .inl rfl, fun hf => ?_, rfl, rfl, rfl, rfl⟩
        simpa [Deployment.ets, hf] using hforward
    | register =>
      cases hmove
      exact ⟨rfl, .inl rfl, fun _ => Int.le_refl _, rfl, rfl, rfl, rfl⟩

/-! ## Requests and draws along a step -/

/-- Request `i` drew the value. -/
def Drew (p : Server config subjectOf forward) (i : Nat) (value : String) : Prop :=
  ∃ e, (i, e) ∈ p.log ∧ Deployment.drawnBy e = some value

theorem Drew.ofToken (h : DrewToken (p.own i) value) : Drew p i value :=
  ⟨_, Pool.mem_own.mp h, rfl⟩

theorem Drew.ofId (h : DrewId (p.own i) value) : Drew p i value :=
  ⟨_, Pool.mem_own.mp h, rfl⟩

theorem fresh_drew (h : Deployment.isFresh p value = true) (ho : Drew p i other) :
    config.host.tokenHash value ≠ config.host.tokenHash other := by
  obtain ⟨e, he, hd⟩ := ho
  have hmem : other ∈ Deployment.drawn p := List.mem_filterMap.mpr ⟨(i, e), he, hd⟩
  simpa [Deployment.sameDigest, Host.secretEqual, Deployment.ets] using
    List.all_eq_true.mp h other (List.mem_append_left _ hmem)

theorem fresh_presented (h : Deployment.isFresh p value = true) (hs : p.Serves i request)
    (ho : other ∈ request.endpoint.params.strings) :
    config.host.tokenHash value ≠ config.host.tokenHash other := by
  obtain ⟨prog, hi⟩ := hs
  have hmem : other ∈ Deployment.presented p :=
    List.mem_flatMap.mpr ⟨_, List.mem_of_getElem? hi, ho⟩
  simpa [Deployment.sameDigest, Host.secretEqual, Deployment.ets] using
    List.all_eq_true.mp h other (List.mem_append_right _ hmem)

theorem admits_drew (h : Deployment.admits p request = true)
    (hv : value ∈ request.endpoint.params.strings) (ho : Drew p j other)
    (heq : config.host.tokenHash other = config.host.tokenHash value) :
    Deployment.isAnswered p j = true := by
  obtain ⟨e, he, hd⟩ := ho
  have hall := List.all_eq_true.mp (List.all_eq_true.mp h value hv) (j, e) he
  simp only [hd, Bool.or_eq_true] at hall
  rcases hall with hne | hans
  · simp [Deployment.sameDigest, Host.secretEqual, Deployment.ets, heq] at hne
  · exact hans

namespace Ran

variable {p q : Server config subjectOf forward} {i : Nat} {request : Request} {e : ServerEvent}

theorem serves_self (h : Ran p i request e q) : p.Serves i request := by
  obtain ⟨k, hi, -⟩ := h.issued
  exact ⟨_, hi⟩

theorem running (h : Ran p i request e q) : Deployment.isAnswered p i = false := by
  obtain ⟨k, hi, -⟩ := h.issued
  simp [Deployment.isAnswered, hi]

variable {j : Nat} {e' : ServerEvent}

section

variable (h : Ran p i request e q)

include h

theorem serves {other : Request} : q.Serves j other ↔ p.Serves j other := by
  obtain ⟨k, hi, hthreads⟩ := h.issued
  have hlen : i < p.threads.length := (List.getElem?_eq_some_iff.mp hi).1
  by_cases hij : i = j
  · subst hij
    constructor
    · rintro ⟨prog, hj⟩
      rw [hthreads, List.getElem?_set_self hlen] at hj
      cases hj
      exact ⟨_, hi⟩
    · rintro ⟨prog, hj⟩
      rw [hi] at hj
      cases hj
      exact ⟨k e.res, by rw [hthreads, List.getElem?_set_self hlen]⟩
  · simp only [Pool.Serves, hthreads, List.getElem?_set_ne hij]

theorem answered (hj : Deployment.isAnswered p j = true) : Deployment.isAnswered q j = true := by
  have hij : i ≠ j := by
    rintro rfl
    rw [h.running] at hj
    cases hj
  obtain ⟨k, hi, hthreads⟩ := h.issued
  simpa only [Deployment.isAnswered, hthreads, List.getElem?_set_ne hij] using hj

theorem mem_log : (j, e') ∈ q.log ↔ (j, e') ∈ p.log ∨ (j = i ∧ e' = e) := by
  rw [h.log]
  simp

theorem log_mono (he : (j, e') ∈ p.log) : (j, e') ∈ q.log :=
  h.mem_log.mpr (.inl he)

/-- Observations without repetition stay so when the step observes nothing seen
before. -/
theorem nodup_observed {α : Type} {f : Nat × ServerEvent → Option α}
    (hnodup : (p.log.filterMap f).Nodup) (hnew : ∀ a, f (i, e) = some a → a ∉ p.log.filterMap f) :
    (q.log.filterMap f).Nodup := by
  rw [h.log, List.filterMap_append]
  cases hf : f (i, e) with
  | none => simpa [hf] using hnodup
  | some a =>
    simp only [List.filterMap_cons, hf]
    refine List.nodup_append.mpr ⟨hnodup, List.nodup_singleton _, fun b hb b' hb' heq => ?_⟩
    exact hnew a hf (List.mem_singleton.mp hb' ▸ heq ▸ hb)

theorem drew : Drew q j value ↔ Drew p j value ∨ (j = i ∧ Deployment.drawnBy e = some value) := by
  constructor
  · rintro ⟨e', he, hd⟩
    rcases h.mem_log.mp he with he | ⟨rfl, rfl⟩
    · exact .inl ⟨e', he, hd⟩
    · exact .inr ⟨rfl, hd⟩
  · rintro (⟨e', he, hd⟩ | ⟨rfl, hd⟩)
    · exact ⟨e', h.log_mono he, hd⟩
    · exact ⟨e, h.mem_log.mpr (.inr ⟨rfl, rfl⟩), hd⟩

end

end Ran

namespace Around

variable {p q : Server config subjectOf forward} {j : Nat} {request : Request}

theorem serves (h : Around p q) (hs : q.Serves j request) :
    p.Serves j request ∨ Deployment.admits p request = true := by
  rcases h.threads with heq | ⟨arrived, hadmits, heq⟩
  · exact .inl (by simpa only [Pool.Serves, heq] using hs)
  · rw [Pool.Serves, heq] at hs
    rcases Pool.serves_arrive.mp hs with hs | ⟨-, rfl⟩
    · exact .inl hs
    · exact .inr hadmits

theorem serves_mono (h : Around p q) (hs : p.Serves j request) : q.Serves j request := by
  rcases h.threads with heq | ⟨arrived, -, heq⟩
  · rw [Pool.Serves, heq]
    exact hs
  · rw [Pool.Serves, heq]
    exact Pool.serves_arrive.mpr (.inl hs)

theorem answered (h : Around p q) (hj : Deployment.isAnswered p j = true) :
    Deployment.isAnswered q j = true := by
  rcases h.threads with heq | ⟨arrived, -, heq⟩
  · simpa only [Deployment.isAnswered, heq] using hj
  · have hlt : j < p.threads.length := by
      by_contra hge
      have hnone : p.threads[j]? = none := List.getElem?_eq_none (by omega)
      simp [Deployment.isAnswered, hnone] at hj
    simpa only [Deployment.isAnswered, heq, List.getElem?_append_left hlt] using hj

theorem drew (h : Around p q) : Drew q j value ↔ Drew p j value := by
  simp only [Drew, h.log]

end Around

/-! ## Unpredictability -/

/-- Drawn values are distinct, and a value that a request carries was drawn by a
request that has been answered. -/
structure Secrets (p : Server config subjectOf forward) : Prop where
  distinct : ∀ {i j : Nat} {v u : String}, Drew p i v → Drew p j u →
    config.host.tokenHash v = config.host.tokenHash u → i = j ∧ v = u
  disclosed : ∀ {i : Nat} {request : Request} {s : String}, p.Serves i request →
    s ∈ request.endpoint.params.strings → ∀ {j : Nat} {v : String}, Drew p j v →
    config.host.tokenHash v = config.host.tokenHash s → Deployment.isAnswered p j = true

theorem Secrets.ran (hp : Secrets p) (h : Ran p i request e q) : Secrets q := by
  refine ⟨fun hv hu heq => ?_, fun hs hmem j v hv heq => ?_⟩
  · rcases h.drew.mp hv with hv' | ⟨rfl, hv'⟩ <;> rcases h.drew.mp hu with hu' | ⟨rfl, hu'⟩
    · exact hp.distinct hv' hu' heq
    · exact absurd heq.symm (fresh_drew (h.drawn _ hu') hv')
    · exact absurd heq (fresh_drew (h.drawn _ hv') hu')
    · rw [hv'] at hu'
      cases hu'
      exact ⟨rfl, rfl⟩
  · rcases h.drew.mp hv with hv | ⟨rfl, hv⟩
    · exact h.answered (hp.disclosed (h.serves.mp hs) hmem hv heq)
    · exact absurd heq (fresh_presented (h.drawn _ hv) (h.serves.mp hs) hmem)

theorem Secrets.around (hp : Secrets p) (h : Around p q) : Secrets q := by
  refine ⟨fun hv hu heq => hp.distinct (h.drew.mp hv) (h.drew.mp hu) heq,
    fun hs hmem j v hv heq => h.answered ?_⟩
  rcases h.serves hs with hs | hadmits
  · exact hp.disclosed hs hmem (h.drew.mp hv) heq
  · exact admits_drew hadmits hmem (h.drew.mp hv) heq

/-- A value drawn by a request in service is not what any request carries. -/
theorem Secrets.not_carried {other : Request} {v s : String} (hp : Secrets p)
    (h : Ran p i request e q) (hv : Drew p i v) (hs : p.Serves j other)
    (hmem : s ∈ other.endpoint.params.strings) :
    config.host.tokenHash v ≠ config.host.tokenHash s := by
  intro heq
  have := hp.disclosed hs hmem hv heq
  rw [h.running] at this
  cases this

/-- What a run shows holds of a reachable state. -/
theorem Sample.exists_reachable {β : Type} (acts : List (Action Request Choice Move))
    (f : Server Sample.config Sample.subjectOf true → β) (b : β)
    (h : ((Deployment.ets Sample.config Sample.subjectOf true).service.runs
      ((Deployment.ets Sample.config Sample.subjectOf true).initial 0) acts).map f = some b) :
    ∃ p, (Deployment.ets Sample.config Sample.subjectOf true).Reachable p ∧ f p = b := by
  obtain ⟨p, hp, hobs⟩ := Service.exists_of_runs acts b h
  exact ⟨p, ⟨0, hp⟩, hobs⟩

end EtsRuns

end NoizuMcp.Auth
