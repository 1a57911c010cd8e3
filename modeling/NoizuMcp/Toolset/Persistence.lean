import Mathlib.Data.List.Sort
import NoizuMcp.Toolset.Override

/-!
# Stored grants and negotiations

The records a host stores about a toolset (`Noizu.MCP.Permission`), as they stand after a
write (`Noizu.MCP.Persistence`), and what a provider lists: the records that have not
expired, most recent first, that pass an exact-match filter. A row whose payload cannot be
read back spoils the whole listing.
-/

set_option autoImplicit false

namespace NoizuMcp.Toolset

/-! ## Records -/

/-- `Auth.Principal`. Subject and authenticator are the host's own terms; the scopes
are as `scope_list/1` lists them. -/
structure Principal where
  subject : Term
  authenticator : Term
  grantedScopes : List String := []
  deriving DecidableEq

/-- A grant allows or denies. -/
inductive Effect where
  | allow
  | deny
  deriving DecidableEq, Repr

/-- `%Permission.Grant{}` as it is stored and read back. -/
structure Grant where
  id : String
  toolsetSlug : String
  authenticator : Option String
  subject : String
  effect : Effect
  scopes : List Term := []
  toolOverrides : List (String × List Override) := []
  deriving DecidableEq

/-- `%Permission.Negotiation{}` as it is stored and read back. -/
structure Negotiation where
  id : String
  toolsetSlug : String
  authenticator : Option String
  tool : String
  requiredScopes : List Term := []
  granted : Bool := false
  metadataOverrides : TermMap := []
  metadata : TermMap := []
  deriving DecidableEq

/-- A row of a store: the record, unless the payload is unreadable, and what the store
sorts and expires it by. -/
structure Row (α : Type) where
  payload : Option α
  expiresAt : Option Nat := none
  insertedAt : Nat
  sort : Nat

/-- The version counters of the three stores. -/
structure StoreVersions where
  toolsets : Nat := 0
  grants : Nat := 0
  negotiations : Nat := 0
  deriving DecidableEq

/-- A provider as it is at one moment. -/
structure Provider where
  reachable : Bool := true
  grants : List (Row Grant) := []
  negotiations : List (Row Negotiation) := []
  versions : StoreVersions := {}

namespace Persistence

/-! ## Listing -/

variable {α : Type}

/-- `Persistence.expired?/2`. -/
def expired (row : Row α) (now : Nat) : Bool :=
  match row.expiresAt with
  | none => false
  | some expiresAt => expiresAt ≤ now

/-- The first row is not older than the second. -/
def Newer (first second : Row α) : Prop :=
  second.insertedAt < first.insertedAt ∨
    second.insertedAt = first.insertedAt ∧ second.sort ≤ first.sort

instance (first second : Row α) : Decidable (Newer first second) :=
  inferInstanceAs (Decidable (_ ∨ _))

/-- The rows that have not expired, most recent first. -/
def live (rows : List (Row α)) (now : Nat) : List (Row α) :=
  (rows.filter fun row => !expired row now).insertionSort Newer

/-- Every payload, if every one can be read. -/
def readAll : List (Row α) → Option (List α)
  | [] => some []
  | row :: rest =>
    match row.payload, readAll rest with
    | some record, some records => some (record :: records)
    | _, _ => none

/-- `list/3` with a filter. -/
def list (rows : List (Row α)) (now : Nat) (pass : α → Bool) : Option (List α) :=
  (readAll (live rows now)).map (·.filter pass)

/-! ### What is listed -/

section Listed

variable {rows : List (Row α)} {now : Nat} {pass : α → Bool} {record : α} {records : List α}
  {row : Row α}

theorem mem_live : row ∈ live rows now ↔ row ∈ rows ∧ expired row now = false := by
  simp [live]

theorem readAll_cons (h : readAll (row :: rows) = some records) :
    ∃ first rest, row.payload = some first ∧ readAll rows = some rest ∧
      records = first :: rest := by
  unfold readAll at h
  split at h
  case h_1 first rest hfirst hrest =>
    cases h
    exact ⟨first, rest, hfirst, hrest, rfl⟩
  case h_2 => cases h

theorem mem_readAll (h : readAll rows = some records) :
    record ∈ records ↔ ∃ row ∈ rows, row.payload = some record := by
  induction rows generalizing records with
  | nil =>
    cases h
    simp
  | cons _ _ ih =>
    obtain ⟨first, others, hfirst, hothers, rfl⟩ := readAll_cons h
    simp [ih hothers, hfirst, eq_comm]

/-- The records listed are the live ones that pass. -/
theorem mem_list (h : list rows now pass = some records) :
    record ∈ records ↔
      ∃ row ∈ rows, row.payload = some record ∧ expired row now = false ∧ pass record = true := by
  obtain ⟨all, hall, rfl⟩ := Option.map_eq_some_iff.mp h
  rw [List.mem_filter, mem_readAll hall]
  constructor
  · rintro ⟨⟨row, hrow, hpayload⟩, hpass⟩
    obtain ⟨hmem, hlive⟩ := mem_live.mp hrow
    exact ⟨row, hmem, hpayload, hlive, hpass⟩
  · rintro ⟨row, hmem, hpayload, hlive, hpass⟩
    exact ⟨⟨row, mem_live.mpr ⟨hmem, hlive⟩, hpayload⟩, hpass⟩

instance : IsTrans (Row α) Newer where
  trans := by
    intro a b c hab hbc
    unfold Newer at *
    omega

instance : Std.Total (@Newer α) where
  total := by
    intro a b
    unfold Newer
    omega

/-- The record is live and passes, and no other that does is as recent. -/
def Newest (rows : List (Row α)) (now : Nat) (pass : α → Bool) (record : α) : Prop :=
  ∃ row ∈ rows, row.payload = some record ∧ expired row now = false ∧ pass record = true ∧
    ∀ other ∈ rows, expired other now = false → ∀ rival, other.payload = some rival →
      pass rival = true → rival ≠ record → ¬ Newer other row

/-- In a list sorted by age, the first record that passes is not older than another. -/
theorem head_of_sorted (hsorted : rows.Pairwise Newer) (h : readAll rows = some records)
    (hrow : row ∈ rows) (hpayload : row.payload = some record) (hpass : pass record = true)
    (hnewest : ∀ other ∈ rows, ∀ rival, other.payload = some rival → pass rival = true →
      rival ≠ record → ¬ Newer other row) : (records.filter pass).head? = some record := by
  induction rows generalizing records with
  | nil => cases hrow
  | cons first _ ih =>
    obtain ⟨value, others, hvalue, hothers, rfl⟩ := readAll_cons h
    obtain ⟨hbefore, hrest⟩ := List.pairwise_cons.mp hsorted
    by_cases hfirst : pass value = true
    · rw [List.filter_cons_of_pos hfirst]
      by_contra hne
      have hrival : value ≠ record := fun heq => hne (congrArg some heq)
      rcases List.mem_cons.mp hrow with rfl | hlater
      · exact hrival (Option.some.inj (hvalue.symm.trans hpayload))
      · exact hnewest first List.mem_cons_self value hvalue hfirst hrival (hbefore row hlater)
    · rw [List.filter_cons_of_neg hfirst]
      rcases List.mem_cons.mp hrow with rfl | hlater
      · cases hvalue.symm.trans hpayload
        exact absurd hpass hfirst
      · exact ih hrest hothers hlater
          fun other hother => hnewest other (List.mem_cons_of_mem _ hother)

/-- The most recent record comes first. -/
theorem newest_head (h : list rows now pass = some records)
    (hnewest : Newest rows now pass record) :
    records.head? = some record := by
  obtain ⟨all, hall, rfl⟩ := Option.map_eq_some_iff.mp h
  obtain ⟨row, hrow, hpayload, hlive, hpass, hrivals⟩ := hnewest
  apply head_of_sorted (List.pairwise_insertionSort Newer _) hall
    (mem_live.mpr ⟨hrow, hlive⟩) hpayload hpass
  intro other hother rival hrival
  obtain ⟨hmem, hfresh⟩ := mem_live.mp hother
  exact hrivals other hmem hfresh rival hrival

end Listed

/-! ### Filters -/

/-- Numbers, booleans and atoms compare by their text. -/
def comparable : Term → Term
  | .int n => .str (toString n)
  | .bool b => .str (toString b)
  | .atom name => .str name
  | term => term

/-- A stored scalar as a term. -/
def scalarTerm : Option String → Term
  | none => .nil
  | some s => .str s

/-- The filter of a listing of grants: a key that is absent is not compared. -/
structure GrantFilter where
  toolsetSlug : String
  authenticator : Term
  subject : Option Term
  deriving DecidableEq

/-- `match_filter?/2` on grants. -/
def GrantFilter.pass (filter : GrantFilter) (grant : Grant) : Bool :=
  grant.toolsetSlug == filter.toolsetSlug &&
    comparable (scalarTerm grant.authenticator) == comparable filter.authenticator &&
    match filter.subject with
    | none => true
    | some subject => comparable (.str grant.subject) == comparable subject

/-- The filter of a listing of negotiations. -/
structure NegotiationFilter where
  toolsetSlug : String
  authenticator : Option Term
  deriving DecidableEq

/-- `match_filter?/2` on negotiations. -/
def NegotiationFilter.pass (filter : NegotiationFilter) (negotiation : Negotiation) : Bool :=
  negotiation.toolsetSlug == filter.toolsetSlug &&
    match filter.authenticator with
    | none => true
    | some authenticator =>
      comparable (scalarTerm negotiation.authenticator) == comparable authenticator

end Persistence

end NoizuMcp.Toolset
