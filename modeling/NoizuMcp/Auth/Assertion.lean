import NoizuMcp.Auth.AuthorizeEndpoint
import NoizuMcp.Auth.StoreEts

/-!
# Assertions of agents

`Noizu.MCP.Auth.Server.Agent.Assertion`: the checks of a signed assertion that need no store,
and the guard that admits its `jti` once. The verdict of the crypto library is a parameter.

The guard keeps a row until the instant `exp`, while `check_time/4` accepts the assertion up to
`exp` plus the skew, in whole seconds: in between a `jti` is admitted again
(`late_claim_admitted`). As long as every claim of a row comes before the expiry of every other
one, there is one admission, whatever is purged (`admitted_once`).
-/

set_option autoImplicit false

namespace NoizuMcp.Auth

open Foundation Protocol

/-- A parsed assertion, not yet verified. -/
structure Assertion where
  kid : String
  claims : Payload
  signingInput : String := ""
  signature : String := ""

/-- What an assertion is verified against. -/
structure VerifyOpts where
  publicKey : String
  audience : String
  accountId : String
  handle : String
  now : DateTime
  skew : Int := 60
  maxAge : Int := 300
  require : List String := []
  expect : List (String × Json) := []

namespace Assertion

/-- Why an assertion is refused. -/
inductive Reason where
  | badSignature
  | missingClaim
  | badClaim
  | badAudience
  | badSubject
  | badHandle
  | notYetValid
  | expired
  | lifetimeTooLong
  deriving DecidableEq

variable (a : Assertion)

/-- The claim of which a row is kept. -/
def jti : String := (a.claims.str "jti").getD ""

/-- `present?/1`. -/
def present : Option Json → Bool
  | some (.str s) => s != ""
  | some (.int _) => true
  | some (.arr items) => !items.isEmpty
  | _ => false

/-- The audience is the text, or a list that has it. -/
def checkAudience (audience : String) : Bool :=
  match a.claims.lookup "aud" with
  | some (.arr items) => items.contains (.str audience)
  | aud => aud = some (.str audience)

/-- `check_time/4`, in seconds. -/
def checkTime (now skew maxAge : Int) : Except Reason Unit :=
  match a.claims.lookup "iat", a.claims.lookup "exp" with
  | some (.int iat), some (.int exp) =>
    if now < iat - skew then .error .notYetValid
    else if exp + skew < now then .error .expired
    else if exp ≤ iat ∨ maxAge < exp - iat then .error .lifetimeTooLong
    else .ok ()
  | _, _ => .error .missingClaim

/-- `verify/2`. -/
def verify (signed : Assertion → String → Bool) (opts : VerifyOpts) : Except Reason Payload := do
  unless signed a opts.publicKey do throw .badSignature
  unless (["iss", "sub", "aud", "iat", "exp", "jti"] ++ opts.require).all
    fun claim => present (a.claims.lookup claim) do throw .missingClaim
  unless opts.expect.all fun claim => a.claims.lookup claim.1 = some claim.2 do throw .badClaim
  unless a.checkAudience opts.audience do throw .badAudience
  unless a.claims.lookup "iss" = some (.str opts.accountId) ∧
    a.claims.lookup "sub" = some (.str opts.accountId) do throw .badSubject
  unless a.claims.lookup "hdl" = some (.str opts.handle) do throw .badHandle
  a.checkTime opts.now.toUnix opts.skew opts.maxAge
  return a.claims

end Assertion

/-! ## The guard -/

/-- What is done to the rows: `claim_jti/2` for an assertion with these claims, or a purge. -/
inductive GuardAct where
  | claim (jti : String) (exp : Int)
  | purge
  deriving DecidableEq

namespace GuardAct

variable (tokenHash : String → String) {now e : DateTime} {key : String} {s : StoreEts}

/-- `purge_jti/2`. -/
def purgeJti (now : DateTime) (s : StoreEts) : StoreEts :=
  { s with
    assertionJti := s.assertionJti.keys.foldl (fun t key =>
      if (t.lookup key).any (· < now) then t.erase key else t) s.assertionJti }

def step (now : DateTime) : GuardAct → StoreEts → Except (StoreError Unit) Unit × StoreEts
  | .claim jti exp, s => StoreEts.claimAssertionJti tokenHash now jti (.ofUnix exp) s
  | .purge, s => (.ok (), purgeJti now s)

/-- The expiry with which an act claims a row. -/
def claims (key : String) : GuardAct → Option DateTime
  | .claim jti exp => if tokenHash jti = key then some (.ofUnix exp) else none
  | .purge => none

/-- When a row is claimed, and with which expiry. -/
def claimed (key : String) (acts : List (DateTime × GuardAct)) : List (DateTime × DateTime) :=
  acts.filterMap fun act => (act.2.claims tokenHash key).map (act.1, ·)

/-- When a claim of a row is admitted. -/
def admissions (key : String) : StoreEts → List (DateTime × GuardAct) → List DateTime
  | _, [] => []
  | s, (now, act) :: rest =>
    let out := act.step tokenHash now s
    let later := admissions key out.2 rest
    if (act.claims tokenHash key).isSome && out.1.isOk then now :: later else later

variable {tokenHash} {act : GuardAct} {acts : List (DateTime × GuardAct)}

/-- A purge keeps the rows that have not expired. -/
theorem lookup_purgeJti (h : s.assertionJti.lookup key = some e) (hlive : now ≤ e) :
    (purgeJti now s).assertionJti.lookup key = some e := by
  unfold purgeJti
  generalize s.assertionJti.keys = keys
  generalize s.assertionJti = t at h ⊢
  induction keys generalizing t with
  | nil => exact h
  | cons other _ ih =>
    rw [List.foldl_cons]
    apply ih
    split
    case isTrue hexpired =>
      have hne : key ≠ other := by
        rintro rfl
        rw [h] at hexpired
        exact absurd (of_decide_eq_true hexpired) (Int.not_lt.mpr hlive)
      rw [AList.lookup_erase_ne hne]
      exact h
    case isFalse => exact h

/-- A row that has not expired stays, and no claim of it is admitted. -/
theorem step_live (act : GuardAct) (h : s.assertionJti.lookup key = some e) (hlive : now < e) :
    (act.step tokenHash now s).2.assertionJti.lookup key = some e ∧
      ((act.claims tokenHash key).isSome → (act.step tokenHash now s).1.isOk = false) := by
  cases act with
  | purge => exact ⟨lookup_purgeJti h (Int.le_of_lt hlive), nofun⟩
  | claim jti exp =>
    simp only [step, StoreEts.claimAssertionJti]
    by_cases hrow : tokenHash jti = key
    · have hexpired : ¬expired now (some e) = true := mt expired_some.mp (Int.not_le.mpr hlive)
      rw [hrow, h]
      dsimp only
      rw [if_neg hexpired]
      exact ⟨h, fun _ => rfl⟩
    · refine ⟨?_, fun hsome => ?_⟩
      · have hinsert : (s.assertionJti.insert (tokenHash jti) (.ofUnix exp)).lookup key =
            s.assertionJti.lookup key := AList.lookup_insert_ne (Ne.symm hrow)
        split
        · split
          · exact hinsert.trans h
          · exact h
        · exact hinsert.trans h
      · rw [claims, if_neg hrow] at hsome
        cases hsome

/-- An admitted claim leaves its row. -/
theorem step_admitted (h : act.claims tokenHash key = some e)
    (hok : (act.step tokenHash now s).1.isOk = true) :
    (act.step tokenHash now s).2.assertionJti.lookup key = some e := by
  cases act with
  | purge => cases h
  | claim =>
    simp only [claims, Option.ite_none_right_eq_some, Option.some_inj] at h
    obtain ⟨rfl, rfl⟩ := h
    simp only [step, StoreEts.claimAssertionJti] at hok ⊢
    split at hok
    · split at hok
      case isTrue hexpired =>
        rw [if_pos hexpired]
        exact AList.lookup_insert s.assertionJti
      case isFalse => cases hok
    · exact AList.lookup_insert s.assertionJti

theorem claimed_cons_subset :
    claimed tokenHash key acts ⊆ claimed tokenHash key ((now, act) :: acts) :=
  ((List.sublist_cons_self _ acts).filterMap _).subset

/-- Under a row that expires after all later claims of it none of them is admitted. -/
theorem admissions_eq_nil
    (h : ∀ claim ∈ claimed tokenHash key acts, ∃ e, s.assertionJti.lookup key = some e ∧ claim.1 < e)
    (hmono : acts.Pairwise (·.1 ≤ ·.1)) : admissions tokenHash key s acts = [] := by
  induction acts generalizing s with
  | nil => rfl
  | cons act rest ih =>
    obtain ⟨now, act⟩ := act
    obtain ⟨hfirst, hrest⟩ := List.pairwise_cons.mp hmono
    have hlater : admissions tokenHash key (act.step tokenHash now s).2 rest = [] := by
      refine ih (fun claim hclaim => ?_) hrest
      obtain ⟨e, he, hlt⟩ := h claim (claimed_cons_subset hclaim)
      obtain ⟨other, hother, hsome⟩ := List.mem_filterMap.mp hclaim
      obtain ⟨_, _, rfl⟩ := Option.map_eq_some_iff.mp hsome
      -- the row outlives the later claim, and so this act
      exact ⟨e, (step_live act he (Int.lt_of_le_of_lt (hfirst other hother) hlt)).1, hlt⟩
    unfold admissions
    dsimp only
    rw [hlater]
    cases hclaims : act.claims tokenHash key with
    | none => rfl
    | some expiry =>
      obtain ⟨e, he, hlt⟩ := h (now, expiry) (List.mem_filterMap.mpr
        ⟨(now, act), List.mem_cons_self, by rw [hclaims]; rfl⟩)
      rw [(step_live act he hlt).2 (hclaims ▸ rfl)]
      rfl

theorem length_admissions_le
    (hlive : ∀ claim ∈ claimed tokenHash key acts, ∀ other ∈ claimed tokenHash key acts,
      claim.1 < other.2)
    (hmono : acts.Pairwise (·.1 ≤ ·.1)) : (admissions tokenHash key s acts).length ≤ 1 := by
  induction acts generalizing s with
  | nil => exact Nat.zero_le 1
  | cons act rest ih =>
    obtain ⟨now, act⟩ := act
    have hrest := (List.pairwise_cons.mp hmono).2
    unfold admissions
    dsimp only
    split
    case isTrue hadmitted =>
      obtain ⟨hsome, hok⟩ := Bool.and_eq_true_iff.mp hadmitted
      obtain ⟨e, he⟩ := Option.isSome_iff_exists.mp hsome
      have hmem : (now, e) ∈ claimed tokenHash key ((now, act) :: rest) :=
        List.mem_filterMap.mpr ⟨(now, act), List.mem_cons_self, by rw [he]; rfl⟩
      rw [admissions_eq_nil (fun claim hclaim => ?_) hrest]
      · exact Nat.le_refl 1
      · exact ⟨e, step_admitted he hok, hlive claim (claimed_cons_subset hclaim) (now, e) hmem⟩
    case isFalse =>
      exact ih (fun claim hclaim other hother =>
        hlive claim (claimed_cons_subset hclaim) other (claimed_cons_subset hother)) hrest

end GuardAct

namespace Assertion

/-- When the `jti` of an assertion is admitted, of the times at which the assertion is accepted. -/
def admitted (tokenHash : String → String) (signed : Assertion → String → Bool) (a : Assertion)
    (opts : VerifyOpts) (s : StoreEts) (acts : List (DateTime × GuardAct)) : List DateTime :=
  (GuardAct.admissions tokenHash (tokenHash a.jti) s acts).filter fun now =>
    (a.verify signed { opts with now := now }).isOk

/-- While every claim of its row comes before the expiry of every other one, the `jti` of an
assertion is admitted once at most. -/
theorem admitted_once {tokenHash : String → String} {signed : Assertion → String → Bool}
    {a : Assertion} {opts : VerifyOpts} {s : StoreEts} {acts : List (DateTime × GuardAct)}
    (hmono : acts.Pairwise (·.1 ≤ ·.1))
    (hlive : ∀ claim ∈ GuardAct.claimed tokenHash (tokenHash a.jti) acts,
      ∀ other ∈ GuardAct.claimed tokenHash (tokenHash a.jti) acts, claim.1 < other.2) :
    (admitted tokenHash signed a opts s acts).length ≤ 1 :=
  Nat.le_trans (List.length_filter_le _ _) (GuardAct.length_admissions_le hlive hmono)

namespace Sample

/-- An assertion issued at 0 for a hundred seconds. -/
def assertion : Assertion where
  kid := "key-1"
  claims := (((((((∅ : Payload).insert "iss" (.str "agent-1")).insert "sub" (.str "agent-1")).insert
    "hdl" (.str "ada")).insert "aud" (.str "https://as.test/token")).insert "iat" (.int 0)).insert
    "exp" (.int 100)).insert "jti" (.str "jti-1")

def opts : VerifyOpts where
  publicKey := "public"
  audience := "https://as.test/token"
  accountId := "agent-1"
  handle := "ada"
  now := 0

/-- Claimed early, purged and claimed again at an instant. -/
def acts (again : DateTime) : List (DateTime × GuardAct) :=
  [(1000000, .claim "jti-1" 100), (2000000, .purge), (again, .claim "jti-1" 100)]

end Sample

theorem second_claim_refused :
    (admitted id (fun _ _ => true) Sample.assertion Sample.opts {}
      (Sample.acts 99999999)).length ≤ 1 :=
  admitted_once (by decide) (by decide +kernel)

/-- At the instant of its expiry the `jti` is admitted again, with a skew and without. -/
theorem late_claim_admitted :
    (Sample.acts 100000000).Pairwise (·.1 ≤ ·.1) ∧ ∀ skew ∈ [0, 60],
      admitted id (fun _ _ => true) Sample.assertion { Sample.opts with skew } {}
        (Sample.acts 100000000) = [1000000, 100000000] := by
  decide +kernel

end Assertion

end NoizuMcp.Auth
