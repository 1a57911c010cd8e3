import NoizuMcp.Toolset.Access

/-!
# Consent gates and deny grants

A tool that a deny grant of the caller targets, or whose most recent negotiation the
caller does not satisfy, is not callable in a composition that could read the stored
records. The denial speaks at weight 200, above every static op. Allow grants speak at
the same weight: an op that states another value makes the composition fail, but an
`inherit?` op clears the denial, by the rule of the merge, and leaves the tool as
callable as its spec is.
-/

set_option autoImplicit false

namespace NoizuMcp.Toolset.Context

open Persistence

variable {provider : Provider} {now : Nat} {slug tool : String} {principal : Option Principal}
  {caller : Principal} {grant : Grant} {state : Persisted} {grants : List Grant}
  {negotiations : List Negotiation} {negotiation : Negotiation} {effective : List Term}

/-! ## The caller's records -/

/-- The grant is stored for the toolset and for this subject and authenticator. -/
def OwnGrant (slug : String) (caller : Principal) (grant : Grant) : Prop :=
  grant.toolsetSlug = slug ∧ scalarTerm grant.authenticator = comparable caller.authenticator ∧
    .str grant.subject = comparable caller.subject

/-- A live grant of the caller. -/
def HasGrant (provider : Provider) (now : Nat) (slug : String) (caller : Principal)
    (grant : Grant) : Prop :=
  ∃ row ∈ provider.grants, row.payload = some grant ∧ expired row now = false ∧
    OwnGrant slug caller grant

/-- A live deny grant of the caller targets the tool. -/
def DeniedBy (provider : Provider) (now : Nat) (slug : String) (principal : Option Principal)
    (tool : String) : Prop :=
  ∃ caller grant ops, principal = some caller ∧ HasGrant provider now slug caller grant ∧
    grant.effect = .deny ∧ (tool, ops) ∈ grant.toolOverrides

/-- The negotiation is one about the tool that concerns the caller. -/
def concerns (slug : String) (principal : Option Principal) (tool : String)
    (negotiation : Negotiation) : Bool :=
  (negotiationFilter slug principal).pass negotiation && negotiation.tool == tool

/-- No scope of the caller and of the caller's allow grants covers the required one. -/
structure Uncovered (provider : Provider) (now : Nat) (slug : String)
    (principal : Option Principal) (required : String) : Prop where
  own : ∀ caller, principal = some caller →
    ∀ granted ∈ caller.grantedScopes, covers granted required = false
  grants : ∀ caller grant, principal = some caller → HasGrant provider now slug caller grant →
    grant.effect = .allow → ∀ granted, .str granted ∈ grant.scopes → covers granted required = false

/-- The most recent live negotiation about the tool is neither granted nor covered. -/
def GatedBy (provider : Provider) (now : Nat) (slug : String) (principal : Option Principal)
    (tool : String) : Prop :=
  ∃ negotiation required,
    Newest provider.negotiations now (concerns slug principal tool) negotiation ∧
    negotiation.granted = false ∧ .str required ∈ negotiation.requiredScopes ∧
    Uncovered provider now slug principal required

/-- An allow grant of the caller has an `inherit?` op on the callability of the tool. -/
def Inherits (provider : Provider) (now : Nat) (slug : String) (principal : Option Principal)
    (tool : String) : Prop :=
  ∃ caller grant ops override, principal = some caller ∧ HasGrant provider now slug caller grant ∧
    grant.effect = .allow ∧ (tool, ops) ∈ grant.toolOverrides ∧ override ∈ ops ∧
    override.op = .setCallable ∧ override.inherits = true

theorem comparable_scalarTerm (value : Option String) :
    comparable (scalarTerm value) = scalarTerm value := by
  cases value <;> rfl

/-- With a subject, the filter passes just the caller's grants. -/
theorem pass_iff {filter : GrantFilter} (hfilter : grantFilter slug (some caller) = some filter)
    (hsubject : caller.subject ≠ .nil) : filter.pass grant = true ↔ OwnGrant slug caller grant := by
  have hstored : comparable (.str grant.subject) = .str grant.subject := rfl
  cases hfilter
  simp [GrantFilter.pass, OwnGrant, hsubject, comparable_scalarTerm, hstored, and_assoc]

/-- The grants that are read are the live ones that pass the caller's filter. -/
theorem fetched_iff (h : fetchGrants provider now slug principal = some grants) :
    grant ∈ grants ↔ ∃ caller filter, principal = some caller ∧
      grantFilter slug (some caller) = some filter ∧
      ∃ row ∈ provider.grants, row.payload = some grant ∧ expired row now = false ∧
        filter.pass grant = true := by
  cases principal with
  | none =>
    cases h
    simp
  | some caller =>
    change (if provider.reachable = true then _ else none) = some grants at h
    split at h
    · rw [mem_list h]
      constructor
      · intro hrow
        exact ⟨caller, _, rfl, rfl, hrow⟩
      · rintro ⟨caller, filter, hcaller, hfilter, hrow⟩
        cases hcaller
        cases hfilter
        exact hrow
    · cases h

/-- With a subject, they are the caller's live grants. -/
theorem mem_fetchGrants (h : fetchGrants provider now slug principal = some grants)
    (hsubject : ∀ caller, principal = some caller → caller.subject ≠ .nil) :
    grant ∈ grants ↔
      ∃ caller, principal = some caller ∧ HasGrant provider now slug caller grant := by
  rw [fetched_iff h]
  constructor
  · rintro ⟨caller, filter, hcaller, hfilter, row, hrow, hpayload, hlive, hpass⟩
    exact ⟨caller, hcaller, row, hrow, hpayload, hlive,
      (pass_iff hfilter (hsubject caller hcaller)).mp hpass⟩
  · rintro ⟨caller, hcaller, row, hrow, hpayload, hlive, hown⟩
    exact ⟨caller, _, hcaller, rfl, row, hrow, hpayload, hlive,
      (pass_iff rfl (hsubject caller hcaller)).mpr hown⟩

/-! ## Gates -/

theorem weighed_eq_some {list : List Negotiation} {rows : List (Negotiation × List Term)}
    (h : weighed effective list = some rows) (hmem : negotiation ∈ list) :
    ∃ missing, (negotiation, missing) ∈ rows ∧
      missingScopes effective negotiation.requiredScopes = some missing := by
  induction list generalizing rows with
  | nil => cases hmem
  | cons _ _ ih =>
    unfold weighed at h
    split at h
    case h_1 missing others hmissing hothers =>
      cases h
      rcases List.mem_cons.mp hmem with rfl | hrest
      · exact ⟨missing, List.mem_cons_self, hmissing⟩
      · obtain ⟨found, hfound, heq⟩ := ih hothers hrest
        exact ⟨found, List.mem_cons_of_mem _ hfound, heq⟩
    case h_2 => cases h

/-- Without a raise, a scope that nothing covers is found not covered. -/
theorem anyCovers_eq {required : String} {found : Bool}
    (h : anyCovers required effective = some found)
    (hnone : ∀ granted, .str granted ∈ effective → covers granted required = false) :
    found = false := by
  induction effective with
  | nil => exact (Option.some.inj h).symm
  | cons _ _ ih =>
    unfold anyCovers at h
    split at h
    case h_1 => rename_i heq; cases heq
    case h_2 granted others heq =>
      cases heq
      rw [if_neg (by simp [hnone granted List.mem_cons_self])] at h
      exact ih h fun other hother => hnone other (List.mem_cons_of_mem _ hother)
    case h_3 => cases h

theorem missing_of_uncovered {required : String} {scopes missing : List Term}
    (h : missingScopes effective scopes = some missing) (hmem : .str required ∈ scopes)
    (hnone : ∀ granted, .str granted ∈ effective → covers granted required = false) :
    .str required ∈ missing := by
  induction scopes generalizing missing with
  | nil => cases hmem
  | cons _ _ ih =>
    unfold missingScopes at h
    split at h
    case h_1 hcovered hothers =>
      cases h
      rcases List.mem_cons.mp hmem with rfl | hrest
      · exact absurd (anyCovers_eq hcovered hnone) (by decide)
      · exact ih hothers hrest
    case h_2 hothers =>
      cases h
      rcases List.mem_cons.mp hmem with rfl | hrest
      · exact List.mem_cons_self
      · exact List.mem_cons_of_mem _ (ih hothers hrest)
    case h_3 => cases h

/-- The first negotiation of a tool is the one that counts. -/
theorem mem_uniqByTool {list : List Negotiation}
    (h : (list.filter fun other => other.tool == tool).head? = some negotiation) :
    negotiation ∈ uniqByTool list := by
  induction list with
  | nil => cases h
  | cons first _ ih =>
    by_cases hfirst : (first.tool == tool) = true
    · rw [List.filter_cons, if_pos hfirst] at h
      cases h
      exact List.mem_cons_self
    · rw [List.filter_cons, if_neg hfirst] at h
      have htool : (negotiation.tool == tool) = true :=
        (List.mem_filter.mp (List.mem_of_mem_head? h)).2
      refine List.mem_cons_of_mem _ (List.mem_filter.mpr ⟨ih h, ?_⟩)
      simp only [beq_iff_eq] at htool hfirst
      simpa [htool] using Ne.symm hfirst

/-- A deny grant of the caller takes the tool's callability away. -/
theorem denied_spoken (h : read provider now slug principal = some state)
    (hsubject : ∀ caller, principal = some caller → caller.subject ≠ .nil)
    (hdenied : DeniedBy provider now slug principal tool) :
    ∃ layer ∈ state.layers, .override (denial .setCallable tool) ∈ layer.ops := by
  obtain ⟨grants, negotiations, hgrants, _, hassemble⟩ := read_eq_some h
  obtain ⟨gates, _, hlayers⟩ := assemble_eq_some hassemble
  obtain ⟨caller, grant, ops, hcaller, hown, heffect, htool⟩ := hdenied
  have hmem : grant ∈ grants := (mem_fetchGrants hgrants hsubject).mpr ⟨caller, hcaller, hown⟩
  have hdeny : grant ∈ denyGrants grants := List.mem_filter.mpr ⟨hmem, by simp [heffect]⟩
  refine ⟨denyLayer grant, ?_, ?_⟩
  · rw [hlayers]
    exact List.mem_append.mpr (.inl (List.mem_append.mpr (.inr (List.mem_map_of_mem hdeny))))
  · exact List.mem_flatMap.mpr ⟨(tool, ops), htool, by simp⟩

theorem list_and {α : Type} {rows : List (Row α)} {pass : α → Bool} {records : List α}
    (h : list rows now pass = some records) (extra : α → Bool) :
    list rows now (fun record => pass record && extra record) = some (records.filter extra) := by
  obtain ⟨all, hall, rfl⟩ := Option.map_eq_some_iff.mp h
  unfold list
  rw [hall, Option.map_some, List.filter_filter]
  simp only [Bool.and_comm]

theorem mem_callerScopes {granted : String}
    (h : .str granted ∈ callerScopes principal grants) :
    (∃ caller, principal = some caller ∧ granted ∈ caller.grantedScopes) ∨
      ∃ grant ∈ grants, grant.effect = .allow ∧ .str granted ∈ grant.scopes := by
  have hgrants : .str granted ∈ (allowGrants grants).flatMap (·.scopes) →
      ∃ grant ∈ grants, grant.effect = .allow ∧ .str granted ∈ grant.scopes := by
    intro hmem
    obtain ⟨grant, hgrant, hscope⟩ := List.mem_flatMap.mp hmem
    obtain ⟨hin, heffect⟩ := List.mem_filter.mp hgrant
    exact ⟨grant, hin, of_decide_eq_true heffect, hscope⟩
  cases principal with
  | none => exact .inr (hgrants h)
  | some caller =>
    rcases List.mem_append.mp (List.mem_eraseDups.mp h) with hown | hgrant
    · obtain ⟨scope, hscope, heq⟩ := List.mem_map.mp hown
      cases heq
      exact .inl ⟨caller, rfl, hscope⟩
    · exact .inr (hgrants hgrant)

section

variable (h : read provider now slug principal = some state)
  (hsubject : ∀ caller, principal = some caller → caller.subject ≠ .nil)

include h hsubject

/-- An unsatisfied negotiation takes the tool's callability away. -/
theorem gated_spoken (hgated : GatedBy provider now slug principal tool) :
    ∃ layer ∈ state.layers, .override (denial .setCallable tool) ∈ layer.ops := by
  obtain ⟨grants, negotiations, hgrants, hnegotiations, hassemble⟩ := read_eq_some h
  obtain ⟨gates, hgates, hlayers⟩ := assemble_eq_some hassemble
  obtain ⟨negotiation, required, hnewest, hgranted, hrequired, huncovered⟩ := hgated
  -- the negotiation comes first among those about the tool
  have hlist : list provider.negotiations now (negotiationFilter slug principal).pass =
      some negotiations := by
    unfold fetchNegotiations at hnegotiations
    split at hnegotiations
    · exact hnegotiations
    · cases hnegotiations
  have hhead := newest_head (list_and hlist fun other => other.tool == tool) hnewest
  obtain ⟨row, hrow, hpayload, _, hpass, _⟩ := hnewest
  have htool : negotiation.tool = tool := by
    simp only [concerns, Bool.and_eq_true, beq_iff_eq] at hpass
    exact hpass.2
  obtain ⟨rows, hweighed, rfl, _⟩ := negotiationOps_eq_some hgates
  obtain ⟨missing, hin, hmissing⟩ := weighed_eq_some hweighed (mem_uniqByTool hhead)
  have hnone : ∀ granted, .str granted ∈ callerScopes principal grants →
      covers granted required = false := by
    intro granted hgranted
    rcases mem_callerScopes hgranted with ⟨caller, hcaller, hown⟩ | ⟨grant, hgrant, heffect, hscope⟩
    · exact huncovered.own caller hcaller granted hown
    · obtain ⟨caller, hcaller, hhas⟩ := (mem_fetchGrants hgrants hsubject).mp hgrant
      exact huncovered.grants caller grant hcaller hhas heffect granted hscope
  have hunsatisfied : unsatisfied negotiation missing = true := by
    have hne := List.ne_nil_of_mem (missing_of_uncovered hmissing hrequired hnone)
    simpa [unsatisfied, hgranted] using hne
  refine ⟨gateLayer negotiation, ?_, ?_⟩
  · rw [hlayers]
    refine List.mem_append.mpr (.inr ?_)
    exact List.mem_reverse.mpr (List.mem_map.mpr ⟨(negotiation, missing),
      List.mem_filter.mpr ⟨hin, hunsatisfied⟩, rfl⟩)
  · rw [gateLayer, htool]
    exact List.mem_singleton.mpr rfl

/-! ## Clearing -/

/-- The clearing ops on the callability of a tool are those of the caller's allow
grants. -/
theorem clears_iff : (∃ layer ∈ state.layers, ∃ override, .override override ∈ layer.ops ∧
        override.inherits = true ∧ Merge.slotFor override = ⟨.str tool, .setCallable, none⟩) ↔
      Inherits provider now slug principal tool := by
  obtain ⟨grants, negotiations, hgrants, _, hassemble⟩ := read_eq_some h
  obtain ⟨gates, hgates, hlayers⟩ := assemble_eq_some hassemble
  rw [hlayers]
  constructor
  · rintro ⟨layer, hlayer, override, hop, hinherits, hslot⟩
    rcases List.mem_append.mp hlayer with hgrants' | hgate
    · rcases List.mem_append.mp hgrants' with hallow | hdeny
      · obtain ⟨grant, hgrant, rfl⟩ := List.mem_map.mp hallow
        obtain ⟨hin, heffect⟩ := List.mem_filter.mp hgrant
        obtain ⟨caller, hcaller, hhas⟩ := (mem_fetchGrants hgrants hsubject).mp hin
        obtain ⟨⟨name, ops⟩, hrow, hmem⟩ := List.mem_flatMap.mp hop
        obtain ⟨stated, hstated, heq⟩ := List.mem_map.mp hmem
        cases heq
        simp only [Merge.slotFor, Slot.mk.injEq, Term.str.injEq] at hslot
        obtain ⟨rfl, hkind, _⟩ := hslot
        exact ⟨caller, grant, ops, stated, hcaller, hhas, of_decide_eq_true heffect, hrow,
          hstated, hkind, hinherits⟩
      · obtain ⟨grant, _, rfl⟩ := List.mem_map.mp hdeny
        obtain ⟨⟨name, ops⟩, _, hmem⟩ := List.mem_flatMap.mp hop
        simp only [List.mem_cons, LayerOp.override.injEq, List.not_mem_nil, or_false] at hmem
        rcases hmem with rfl | rfl <;> cases hinherits
    · obtain ⟨rows, _, rfl, _⟩ := negotiationOps_eq_some hgates
      obtain ⟨row, _, rfl⟩ := List.mem_map.mp (List.mem_reverse.mp hgate)
      cases List.mem_singleton.mp hop
      cases hinherits
  · rintro ⟨caller, grant, ops, stated, hcaller, hhas, heffect, hrow, hstated, hkind, hinherits⟩
    have hin : grant ∈ grants := (mem_fetchGrants hgrants hsubject).mpr ⟨caller, hcaller, hhas⟩
    refine ⟨allowLayer grant, ?_, _,
      List.mem_flatMap.mpr ⟨(tool, ops), hrow, List.mem_map.mpr ⟨stated, hstated, rfl⟩⟩,
      hinherits, ?_⟩
    · exact List.mem_append.mpr (.inl (List.mem_append.mpr (.inl
        (List.mem_map_of_mem (List.mem_filter.mpr ⟨hin, by simp [heffect]⟩)))))
    · simp [Merge.slotFor, hkind, Op.isField]

end

/-- The access layer does not speak on a tool that is allowed. -/
theorem aclLayers_silent {specs : List Spec} {acl : Acl} {layers : List Layer}
    (h : aclLayers specs (some acl) = some layers) (hallows : acl.allows tool = true)
    {layer : Layer} (hlayer : layer ∈ layers) {override : Override}
    (hop : .override override ∈ layer.ops) : (Merge.slotFor override).tool ≠ .str tool := by
  simp only [aclLayers] at h
  split at h
  · cases h
    cases hlayer
  · split at h
    · cases h
      cases List.mem_singleton.mp hlayer
      obtain ⟨spec, _, hspec⟩ := List.mem_flatMap.mp hop
      split at hspec
      · cases hspec
      case isFalse hdenied =>
        have hne : spec.definition.name ≠ tool := by
          rintro rfl
          exact hdenied hallows
        simp only [List.mem_cons, LayerOp.override.injEq, List.not_mem_nil, or_false] at hspec
        rcases hspec with rfl | rfl <;> simpa [Merge.slotFor, denial] using hne
    · cases h

end NoizuMcp.Toolset.Context

namespace NoizuMcp.Toolset.Custom

open Context (DeniedBy GatedBy Inherits)

variable {memo memo' : Memo} {toolset : Custom} {request : Request} {composed : Composed}
  {winners : Winners} {made : List Made} {provider : Provider} {spec : Spec}
  {entry : Entry} {layer : Layer}

section

variable (hmutable : toolset.immutable = false) (hselect : request.selection = .enabled provider)

include hmutable hselect

theorem persistedFor_read : persistedFor toolset request =
      (Context.read provider request.now toolset.slug request.auth).getD { degraded := true } := by
  unfold persistedFor Context.persisted
  rw [hmutable, hselect]
  rfl

theorem persistedFor_eq (hread : (persistedFor toolset request).degraded = false) :
    Context.read provider request.now toolset.slug request.auth =
      some (persistedFor toolset request) := by
  rw [persistedFor_read hmutable hselect] at hread ⊢
  cases hstate : Context.read provider request.now toolset.slug request.auth with
  | none =>
    rw [hstate] at hread
    cases hread
  | some => rfl

end

section

variable (h : Passes memo toolset request composed memo' winners made)

include h

/-- On a tool that the policy allows, no op weighs more than the persisted ones, and
those that clear at their weight are persisted. -/
theorem Passes.allowed_below
    (hhost : ∀ layer ∈ request.contextLayers, layer.weight < Context.persistedWeight)
    {tool : String} (hallows : ∀ acl, request.acl = some acl → acl.allows tool = true)
    {override : Override} (hmem : override ∈ Merge.spoken (layers toolset request))
    (hslot : (Merge.slotFor override).tool = .str tool) :
    override.weight ≤ Context.persistedWeight ∧
      (override.weight = Context.persistedWeight →
        ∃ layer ∈ (persistedFor toolset request).layers, override ∈ Merge.Layer.spoken layer) := by
  obtain ⟨layer, hlayer, hspoken⟩ := Merge.mem_spoken.mp hmem
  obtain ⟨stated, hstated, hweight⟩ := Merge.mem_layer_spoken.mp hspoken
  have heq : override.weight = layer.weight := by rw [hweight]
  rw [heq]
  rcases h.layer_cases hlayer with ⟨acl, hacl, hin⟩ | hpersisted | hown | hstatic
  · -- an access layer would have to deny the tool
    cases hpolicy : request.acl with rw [hpolicy] at hacl
    | none =>
      cases hacl
      cases hin
    | some policy =>
      have hsilent := Context.aclLayers_silent hacl (hallows policy hpolicy) hin hstated
      rw [hweight] at hslot
      exact absurd hslot hsilent
  · refine ⟨(Context.persisted_weight hpersisted).le, ?_⟩
    intro _
    exact ⟨layer, hpersisted, hspoken⟩
  · have hlt := hhost layer hown
    exact ⟨hlt.le, fun heq => absurd heq hlt.ne⟩
  · have hlt : layer.weight < Context.persistedWeight := by
      rw [hstatic]
      decide
    exact ⟨hlt.le, fun heq => absurd heq hlt.ne⟩

theorem Passes.persisted_mem (hlayer : layer ∈ (persistedFor toolset request).layers) :
    layer ∈ layers toolset request := by
  obtain ⟨acl, _, hcontext⟩ := Option.map_eq_some_iff.mp h.layered
  refine List.mem_append.mpr (.inl ?_)
  rw [← hcontext]
  exact List.mem_append.mpr (.inl (List.mem_append.mpr (.inr hlayer)))

variable (hhost : ∀ layer ∈ request.contextLayers, layer.weight < Context.persistedWeight)
  {tool : String} (hallows : ∀ acl, request.acl = some acl → acl.allows tool = true)
  (hlayer : layer ∈ (persistedFor toolset request).layers)

include hhost hallows hlayer

/-- A persisted op that clears the callability of a tool the policy allows leaves it as
the spec has it: nothing above the persisted weight speaks on the tool. -/
theorem Passes.flag_of_clearing {stated : Override}
    (hstated : .override stated ∈ layer.ops) (hinherits : stated.inherits = true)
    (hslot : Merge.slotFor stated = ⟨.str tool, .setCallable, none⟩) (base : Bool) :
    Merge.flag (layers toolset request) tool .setCallable base = base := by
  have hspoken := Merge.mem_spoken.mpr
    ⟨layer, h.persisted_mem hlayer, Merge.mem_layer_spoken.mpr ⟨stated, hstated, rfl⟩⟩
  have hwins := Merge.winner_of_cleared hspoken hinherits (by
    intro other hother hsame
    have hbelow := (h.allowed_below hhost hallows hother (by rw [hsame]; exact congrArg _ hslot)).1
    exact hbelow.trans (Context.persisted_weight hlayer).ge)
  have hnone : Merge.winner (layers toolset request) ⟨.str tool, .setCallable, none⟩ = none := by
    rw [← hslot]
    exact hwins
  unfold Merge.flag
  rw [hnone]
  rfl

/-- A persisted denial of a tool the policy allows stands unless a persisted op clears
the slot: only one of its own weight could. -/
theorem Passes.flag_of_denial
    (hdenial : .override (Context.denial .setCallable tool) ∈ layer.ops)
    (hclears : ¬ ∃ layer ∈ (persistedFor toolset request).layers, ∃ override,
      .override override ∈ layer.ops ∧ override.inherits = true ∧
        Merge.slotFor override = ⟨.str tool, .setCallable, none⟩) (base : Bool) :
    Merge.flag (layers toolset request) tool .setCallable base = false := by
  have hspoken := Merge.mem_spoken.mpr
    ⟨layer, h.persisted_mem hlayer, Merge.mem_layer_spoken.mpr ⟨_, hdenial, rfl⟩⟩
  have hweight := Context.persisted_weight hlayer
  have hbelow : ∀ other ∈ Merge.spoken (layers toolset request),
      Merge.slotFor other = ⟨.str tool, .setCallable, none⟩ → _ :=
    fun other hother hsame => h.allowed_below hhost hallows hother (by rw [hsame])
  have hwins := Merge.winner_of_top h.folded hspoken rfl
    (fun other hother hsame => (hbelow other hother hsame).1.trans hweight.ge)
    (by
      intro other hother hsame hinherits
      obtain ⟨hle, hpersisted⟩ := hbelow other hother hsame
      refine lt_of_le_of_ne (hle.trans hweight.ge) ?_
      intro hsameWeight
      obtain ⟨source, hsource, hsaid⟩ := hpersisted (hsameWeight.trans hweight)
      obtain ⟨stated, hstated, rfl⟩ := Merge.mem_layer_spoken.mp hsaid
      exact hclears ⟨source, hsource, stated, hstated, hinherits, hsame⟩)
  obtain ⟨override, hwinner, hvalue⟩ : ∃ override, Merge.winner (layers toolset request)
      ⟨.str tool, .setCallable, none⟩ = some override ∧ override.value = .bool false :=
    ⟨_, hwins, rfl⟩
  unfold Merge.flag
  rw [hwinner]
  simp [Overrides.writeFlag, hvalue]

end

/-- A tool that a deny grant or a consent gate holds back is callable just if an allow
grant of the caller clears the slot by an `inherit?` op, its spec is callable and the
policy allows it. -/
theorem gated_callable_iff {state : Remembered} {process : Nat} {caching : Bool}
    {fresh : CacheKey → Bool}
    (hperform : (Composition.perform state ⟨process, toolset, request, caching, fresh⟩).1 =
      .ok composed)
    (hcache : Composition.cached state ⟨process, toolset, request, caching, fresh⟩ = none)
    (hmutable : toolset.immutable = false) (hselect : request.selection = .enabled provider)
    (hread : (persistedFor toolset request).degraded = false)
    (hsubject : ∀ caller, request.auth = some caller → caller.subject ≠ .nil)
    (hhost : ∀ layer ∈ request.contextLayers, layer.weight < Context.persistedWeight)
    (hpair : (spec, entry) ∈ (kept toolset request).zip composed.entries)
    (hheld : DeniedBy provider request.now toolset.slug request.auth spec.definition.name ∨
      GatedBy provider request.now toolset.slug request.auth spec.definition.name) :
    entry.callable = true ↔
      Inherits provider request.now toolset.slug request.auth spec.definition.name ∧
        spec.callable = true ∧
        ∀ acl, request.acl = some acl → acl.allows spec.definition.name = true := by
  obtain ⟨memo', h⟩ := Composition.compose_of_perform hperform hcache
  obtain ⟨winners, made, hpasses⟩ := compose_eq_ok h
  rw [hpasses.entries, List.zip_map_right] at hpair
  obtain ⟨⟨spec, tool⟩, hzip, heq⟩ := List.mem_map.mp hpair
  cases heq
  have hshows := List.forall₂_zip hpasses.shows hzip
  have hstate := persistedFor_eq hmutable hselect hread
  show tool.entry.callable = true ↔ _
  rw [hshows.callable]
  by_cases hpolicy : ∀ acl, request.acl = some acl → acl.allows spec.definition.name = true
  case neg =>
    -- the access layer outweighs everything else
    push Not at hpolicy
    obtain ⟨acl, hacl, hdenied⟩ := hpolicy
    have hdown := hpasses.denied_flag hacl
      (fun layer hlayer => (hhost layer hlayer).trans (by decide)) (List.of_mem_zip hzip).1
      (Bool.eq_false_of_not_eq_true hdenied) (.inr rfl) spec.callable
    rw [hdown]
    constructor
    · intro hfalse
      cases hfalse
    · rintro ⟨_, _, hallows⟩
      exact absurd (hallows acl hacl) hdenied
  case pos =>
    obtain ⟨layer, hlayer, hdenial⟩ : ∃ layer ∈ (persistedFor toolset request).layers,
        .override (Context.denial .setCallable spec.definition.name) ∈ layer.ops :=
      hheld.elim (Context.denied_spoken hstate hsubject) (Context.gated_spoken hstate hsubject)
    rw [← Context.clears_iff hstate hsubject]
    by_cases hclears : ∃ layer ∈ (persistedFor toolset request).layers, ∃ override,
        .override override ∈ layer.ops ∧ override.inherits = true ∧
          Merge.slotFor override = ⟨.str spec.definition.name, .setCallable, none⟩
    case pos =>
      obtain ⟨clearing, hclearing, stated, hstated, hinherits, hslot⟩ := hclears
      rw [hpasses.flag_of_clearing hhost hpolicy hclearing hstated hinherits hslot]
      constructor
      · intro hcallable
        exact ⟨⟨clearing, hclearing, stated, hstated, hinherits, hslot⟩, hcallable, hpolicy⟩
      · rintro ⟨_, hcallable, _⟩
        exact hcallable
    case neg =>
      rw [hpasses.flag_of_denial hhost hpolicy hlayer hdenial hclears]
      constructor
      · intro hfalse
        cases hfalse
      · rintro ⟨hcleared, _⟩
        exact absurd hcleared hclears

end NoizuMcp.Toolset.Custom

namespace NoizuMcp.Toolset.Sample

open Context (GatedBy Inherits)

/-- The toolset itself calls `write` callable. -/
def eager : Custom where
  slug := "files"
  base := .module "Files"
  tools := [("write", [.override (op .setCallable "write" (.bool true))])]

/-- A grant that gives alice one more scope. -/
def lists : Grant where
  id := "g2"
  toolsetSlug := "files"
  authenticator := some "claims"
  subject := "alice"
  effect := .allow
  scopes := [.str "files:list"]

/-- A grant that denies alice to write. -/
def forbids : Grant where
  id := "g3"
  toolsetSlug := "files"
  authenticator := some "claims"
  subject := "alice"
  effect := .deny
  toolOverrides := [("write", [op .setCallable "write" (.bool false)])]

/-- A grant that leaves the callability of `write` to its base. -/
def inherits : Grant where
  id := "g4"
  toolsetSlug := "files"
  authenticator := some "claims"
  subject := "alice"
  effect := .allow
  toolOverrides := [("write", [{ op .setCallable "write" .nil with inherits := true }])]

/-- The stores of `asks`: one grant, and a negotiation that alice does not satisfy. -/
def asked : Provider where
  grants := [{ payload := some lists, insertedAt := 1, sort := 1 }]
  negotiations := [{ payload := some gate, insertedAt := 1, sort := 1 }]

def asks : Request where
  auth := some alice
  surface := surface
  selection := .enabled asked

/-- The stores of `cleared`: a denial, and a grant that inherits over it. -/
def clearing : Provider where
  grants := [{ payload := some forbids, insertedAt := 1, sort := 1 },
    { payload := some inherits, insertedAt := 2, sort := 2 }]

def cleared : Request where
  auth := some alice
  surface := surface
  selection := .enabled clearing

theorem gated_write : GatedBy asked 0 "files" (some alice) "write" := by
  refine ⟨gate, "files:write", ⟨_, List.mem_singleton.mpr rfl, rfl, rfl, by decide, ?_⟩, rfl,
    List.mem_singleton.mpr rfl, ?_, ?_⟩
  · intro other hother _ rival hrival _ hne
    rw [List.mem_singleton.mp hother] at hrival
    cases hrival
    exact absurd rfl hne
  · intro caller hcaller
    cases hcaller
    decide
  · rintro caller grant hcaller ⟨row, hrow, hpayload, _⟩ _ granted hscope
    rw [List.mem_singleton.mp hrow] at hpayload
    cases hpayload
    cases List.mem_singleton.mp hscope
    decide

theorem not_inherits : ¬ Inherits asked 0 "files" (some alice) "write" := by
  rintro ⟨caller, grant, ops, override, _, ⟨row, hrow, hpayload, _⟩, _, htool, _⟩
  rw [List.mem_singleton.mp hrow] at hpayload
  cases hpayload
  cases htool

end NoizuMcp.Toolset.Sample

namespace NoizuMcp.Toolset.Custom

theorem gated_callable_iff_sample :
    ∃ composed, (Composition.perform {} ⟨0, Sample.eager, Sample.asks, true, fun _ => true⟩).1 =
        .ok composed ∧
      composed.entries.map (fun entry => (entry.definition.name, entry.callable)) =
        [("read", true), ("write", false)] ∧
      ∀ entry, (Sample.tool "write", entry) ∈
        (kept Sample.eager Sample.asks).zip composed.entries → ¬ entry.callable = true := by
  have hentries : ((Composition.perform {}
      ⟨0, Sample.eager, Sample.asks, true, fun _ => true⟩).1.toOption.map fun composed =>
        composed.entries.map fun entry => (entry.definition.name, entry.callable)) =
      some [("read", true), ("write", false)] := by
    decide +kernel
  cases hperform : (Composition.perform {}
      ⟨0, Sample.eager, Sample.asks, true, fun _ => true⟩).1 with rw [hperform] at hentries
  | error => cases hentries
  | ok composed =>
    refine ⟨composed, rfl, Option.some.inj hentries, ?_⟩
    intro entry hpair hcallable
    have hsubject : ∀ caller, Sample.asks.auth = some caller → caller.subject ≠ .nil := by
      intro caller hcaller
      cases hcaller
      decide
    have hiff := gated_callable_iff hperform (by simp [Composition.cached]) rfl rfl
      (by decide +kernel) hsubject (by intro layer hlayer; cases hlayer) hpair
      (.inr Sample.gated_write)
    exact Sample.not_inherits (hiff.mp hcallable).1

/-- A deny grant of alice targets `write`, which an allow grant makes callable again. -/
theorem denied_tool_callable :
    Context.DeniedBy Sample.clearing 0 "files" (some Sample.alice) "write" ∧
      (compose [] Sample.plain Sample.cleared).1.toOption.map (fun composed =>
        composed.entries.map fun entry => (entry.definition.name, entry.callable)) =
      some [("read", true), ("write", true)] := by
  constructor
  · exact ⟨Sample.alice, Sample.forbids, _, rfl,
      ⟨_, List.mem_cons_self, rfl, rfl, rfl, rfl, rfl⟩, rfl, List.mem_singleton.mpr rfl⟩
  · decide +kernel

end NoizuMcp.Toolset.Custom
