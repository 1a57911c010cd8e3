import NoizuMcp.Toolset.Consent

/-!
# Whose grants count

The grants that a composition reads are selected by a filter on the toolset, the
authenticator and the subject of the caller. They reach the result in two ways only: as
persisted layers, and by the scopes that satisfy negotiations (`persistedFor_grants`).

For a caller with a subject the filter passes just the caller's own grants, in the string
form in which a write stores subject and authenticator (`pass_iff`). For a principal whose
subject is `nil` the filter has no subject key, and passes the grants of every subject of
the authenticator.
-/

set_option autoImplicit false

namespace NoizuMcp.Toolset.Context

open Persistence

variable {slug : String} {caller : Principal} {grant : Grant}

/-- Without a subject, the filter passes the grants of every subject. -/
theorem pass_nil_iff {filter : GrantFilter} (hfilter : grantFilter slug (some caller) = some filter)
    (hsubject : caller.subject = .nil) :
    filter.pass grant = true ↔
      grant.toolsetSlug = slug ∧
        scalarTerm grant.authenticator = comparable caller.authenticator := by
  cases hfilter
  simp [GrantFilter.pass, hsubject, comparable_scalarTerm]

end NoizuMcp.Toolset.Context

namespace NoizuMcp.Toolset.Custom

open Context Persistence

variable {toolset : Custom} {request : Request} {grant : Grant} {provider : Provider}
  {caller : Principal}

/-! ## The grants of a composition -/

/-- The grants that a composition reads and that are not lost because it degrades. -/
def contributing (toolset : Custom) (request : Request) : List Grant :=
  if toolset.immutable then []
  else match request.selection with
    | .enabled provider =>
      match read provider request.now toolset.slug request.auth with
      | some _ => (fetchGrants provider request.now toolset.slug request.auth).getD []
      | none => []
    | _ => []

/-- Grants reach the persisted state in two ways only: as layers, and by their scopes. -/
theorem persistedFor_grants (toolset : Custom) (request : Request) :
    ∃ negotiations gates,
      (persistedFor toolset request).layers =
        ((allowGrants (contributing toolset request)).map allowLayer ++
          (denyGrants (contributing toolset request)).map denyLayer) ++ gates ∧
      negotiationOps negotiations (callerScopes request.auth (contributing toolset request)) =
        some (gates, (persistedFor toolset request).negotiations) := by
  unfold persistedFor persisted contributing
  split
  · exact ⟨[], [], rfl, rfl⟩
  · cases request.selection with
    | unresolved | disabled => exact ⟨[], [], rfl, rfl⟩
    | enabled provider =>
      dsimp only
      cases hread : read provider request.now toolset.slug request.auth with
      | none => exact ⟨[], [], rfl, rfl⟩
      | some =>
        obtain ⟨grants, negotiations, hgrants, _, hassemble⟩ := read_eq_some hread
        obtain ⟨gates, hgates, hlayers⟩ := assemble_eq_some hassemble
        rw [hgrants]
        exact ⟨negotiations, gates, hlayers, hgates⟩

theorem read_healthy {state : Persisted} {now : Nat} {slug : String}
    {principal : Option Principal} (h : read provider now slug principal = some state) :
    state.degraded = false := by
  obtain ⟨grants, negotiations, _, _, hassemble⟩ := read_eq_some h
  obtain ⟨_, _, rfl⟩ := Option.map_eq_some_iff.mp hassemble
  rfl

/-- The grants that contribute are the live ones that pass the caller's filter. -/
theorem mem_contributing :
    grant ∈ contributing toolset request ↔
      ∃ caller provider filter, request.auth = some caller ∧ toolset.immutable = false ∧
        request.selection = .enabled provider ∧ (persistedFor toolset request).degraded = false ∧
        grantFilter toolset.slug (some caller) = some filter ∧
        ∃ row ∈ provider.grants, row.payload = some grant ∧ expired row request.now = false ∧
          filter.pass grant = true := by
  constructor
  · intro hmem
    unfold contributing at hmem
    split at hmem
    · cases hmem
    case isFalse hmutable =>
      split at hmem
      case h_1 provider hselect =>
        split at hmem
        case h_1 hread =>
          obtain ⟨grants, negotiations, hgrants, _, _⟩ := read_eq_some hread
          rw [hgrants] at hmem
          obtain ⟨caller, filter, hcaller, hfilter, hrow⟩ := (fetched_iff hgrants).mp hmem
          have hstate := persistedFor_read (Bool.eq_false_of_not_eq_true hmutable) hselect
          rw [hread] at hstate
          refine ⟨caller, provider, filter, hcaller, Bool.eq_false_of_not_eq_true hmutable,
            hselect, ?_, hfilter, hrow⟩
          rw [hstate]
          exact read_healthy hread
        case h_2 => cases hmem
      case h_2 => cases hmem
  · rintro ⟨caller, provider, filter, hcaller, hmutable, hselect, hhealthy, hfilter, hrow⟩
    have hread := persistedFor_eq hmutable hselect hhealthy
    obtain ⟨grants, negotiations, hgrants, _, _⟩ := read_eq_some hread
    unfold contributing
    rw [hmutable, hselect]
    simp only [hread, hgrants]
    exact (fetched_iff hgrants).mpr ⟨caller, filter, hcaller, hfilter, hrow⟩

/-! ## Exposure -/

/-- The caller is a principal without a subject, and a live grant of its authenticator is
read for it. -/
def Exposed (toolset : Custom) (request : Request) : Prop :=
  ∃ caller provider, request.auth = some caller ∧ caller.subject = .nil ∧
    toolset.immutable = false ∧ request.selection = .enabled provider ∧
    (persistedFor toolset request).degraded = false ∧
    ∃ row ∈ provider.grants, expired row request.now = false ∧
      ∃ grant, row.payload = some grant ∧ grant.toolsetSlug = toolset.slug ∧
        scalarTerm grant.authenticator = comparable caller.authenticator

/-- A composition takes from the stored grants only the layers and the scopes of those that
contribute, and they are all stored for the subject and the authenticator of the caller,
who has one, if and only if the caller is not exposed. -/
theorem grants_own_iff (toolset : Custom) (request : Request) :
    (∃ negotiations gates,
      (persistedFor toolset request).layers =
        ((allowGrants (contributing toolset request)).map allowLayer ++
          (denyGrants (contributing toolset request)).map denyLayer) ++ gates ∧
      negotiationOps negotiations (callerScopes request.auth (contributing toolset request)) =
        some (gates, (persistedFor toolset request).negotiations)) ∧
    ((∀ grant ∈ contributing toolset request, ∃ caller, request.auth = some caller ∧
        caller.subject ≠ .nil ∧ OwnGrant toolset.slug caller grant) ↔
      ¬ Exposed toolset request) := by
  refine ⟨persistedFor_grants toolset request, ?_, ?_⟩
  · rintro hown ⟨caller, provider, hcaller, hnil, hmutable, hselect, hhealthy, row, hrow, hlive,
      grant, hpayload, hslug, hauthenticator⟩
    have hmem : grant ∈ contributing toolset request :=
      mem_contributing.mpr ⟨caller, provider, _, hcaller, hmutable, hselect, hhealthy, rfl, row,
        hrow, hpayload, hlive, (pass_nil_iff rfl hnil).mpr ⟨hslug, hauthenticator⟩⟩
    obtain ⟨other, hother, hsubject, _⟩ := hown grant hmem
    cases hcaller.symm.trans hother
    exact hsubject hnil
  · intro hexposed grant hmem
    obtain ⟨caller, provider, filter, hcaller, hmutable, hselect, hhealthy, hfilter, row, hrow,
      hpayload, hlive, hpass⟩ := mem_contributing.mp hmem
    refine ⟨caller, hcaller, ?_⟩
    by_cases hsubject : caller.subject = .nil
    · obtain ⟨hslug, hauthenticator⟩ := (pass_nil_iff hfilter hsubject).mp hpass
      exact absurd ⟨caller, provider, hcaller, hsubject, hmutable, hselect, hhealthy, row, hrow,
        hlive, grant, hpayload, hslug, hauthenticator⟩ hexposed
    · exact ⟨hsubject, (pass_iff hfilter hsubject).mp hpass⟩

end NoizuMcp.Toolset.Custom

namespace NoizuMcp.Toolset.Sample

/-- A grant that gives alice the scope to write. -/
def writes : Grant where
  id := "g5"
  toolsetSlug := "files"
  authenticator := some "claims"
  subject := "alice"
  effect := .allow
  scopes := [.str "files:write"]

/-- Writing takes a scope, which alice has. -/
def consented : Provider where
  grants := [{ payload := some writes, insertedAt := 1, sort := 1 }]
  negotiations := [{ payload := some gate, insertedAt := 1, sort := 1 }]

/-- A principal of the same authenticator that has no subject. -/
def nobody : Principal where
  subject := .nil
  authenticator := .atom "claims"

def unnamed : Request where
  auth := some nobody
  surface := surface
  selection := .enabled consented

end NoizuMcp.Toolset.Sample

namespace NoizuMcp.Toolset.Custom

/-- A principal without a subject writes with the scope that was granted to alice. -/
theorem grant_leaked :
    contributing Sample.plain Sample.unnamed = [Sample.writes] ∧
      (compose [] Sample.plain Sample.unnamed).1.toOption.map (fun composed =>
        composed.entries.map fun entry => (entry.definition.name, entry.callable)) =
      some [("read", true), ("write", true)] ∧
      (compose [] Sample.plain { Sample.unnamed with auth := none }).1.toOption.map (fun composed =>
        composed.entries.map fun entry => (entry.definition.name, entry.callable)) =
      some [("read", true), ("write", false)] := by
  decide +kernel

end NoizuMcp.Toolset.Custom
