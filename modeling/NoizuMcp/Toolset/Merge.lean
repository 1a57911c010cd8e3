import Mathlib.Data.List.Dedup
import NoizuMcp.Foundation.Weighing
import NoizuMcp.Toolset.Override

/-!
# The merge of layers

`Noizu.MCP.Toolset.Merge`: the ops of all layers are sorted by slot (a tool, an op and,
for a field-level op, the field), and every slot is resolved by weight. The ops on one
slot are weighed voices; an `inherit?` op is a clearing voice.

The map of winners is a list here, with one row for each slot that was won. A map of
the host language has no order of its own; the rows stand in the order of the slots,
and no result below depends on it.
-/

set_option autoImplicit false

namespace NoizuMcp.Toolset

open Foundation Foundation.Weighing

/-- `Merge.slot`. -/
structure Slot where
  tool : Term
  op : Op
  field : Option Term := none
  deriving DecidableEq

/-- The winning op of each slot; its `layer` and `weight` are the provenance. -/
abbrev Winners := List (Slot × Override)

namespace Merge

/-- What an override is about: two for one slot compete. -/
def slotFor (override : Override) : Slot where
  tool := match override.tool with
    | some tool => .str tool
    | none => override.target
  op := override.op
  field := if override.op.isField then some override.target else none

/-- The overrides of a layer, with the weight and the identity of the layer. -/
def Layer.spoken (layer : Layer) : List Override :=
  layer.ops.filterMap fun
    | .override override => some { override with weight := layer.weight, layer := some layer.id }
    | .other _ => none

/-- The overrides of all layers. -/
def spoken (layers : List Layer) : List Override := layers.flatMap Layer.spoken

/-- An override as a voice on its slot. -/
def voice (override : Override) : Voice Override :=
  ⟨override, override.weight, override.inherits⟩

/-- The voices on a slot. -/
def voices (layers : List Layer) (slot : Slot) : List (Voice Override) :=
  ((spoken layers).filter fun override => slotFor override = slot).map voice

/-- The slots that are spoken on. -/
def slots (layers : List Layer) : List Slot := ((spoken layers).map slotFor).dedup

/-- `op_shape_issue/1` for every member of an op list that is no override. -/
def shapeIssues (layers : List Layer) : List Issue :=
  layers.flatMap fun layer => layer.ops.filterMap fun
    | .override _ => none
    | .other _ => some ⟨.invalidOp, none, none, none⟩

/-- `conflict_issue/2` for every contested slot. -/
def conflictIssues (layers : List Layer) : List Issue :=
  (slots layers).filterMap fun slot =>
    match resolve (voices layers slot) with
    | .conflict _ => some ⟨.weightConflict, some slot.op, some slot.tool, slot.field⟩
    | _ => none

/-- The op that wins a slot. -/
def winner (layers : List Layer) (slot : Slot) : Option Override :=
  match resolve (voices layers slot) with
  | .winner voice => some voice.value
  | _ => none

/-- `Merge.fold/2`. -/
def fold (layers : List Layer) : Except (List Issue) Winners :=
  match shapeIssues layers ++ conflictIssues layers with
  | [] => .ok ((slots layers).filterMap fun slot =>
    (winner layers slot).map fun override => (slot, override))
  | issues => .error issues

/-! ## Voices -/

variable {layers : List Layer} {layer : Layer} {slot : Slot} {override : Override}
  {winners : Winners}

theorem mem_layer_spoken :
    override ∈ Layer.spoken layer ↔
      ∃ stated, .override stated ∈ layer.ops ∧
        override = { stated with weight := layer.weight, layer := some layer.id } := by
  simp only [Layer.spoken, List.mem_filterMap]
  constructor
  · rintro ⟨member, hmem, heq⟩
    cases member with
    | override stated => exact ⟨stated, hmem, (Option.some.inj heq).symm⟩
    | other => cases heq
  · rintro ⟨stated, hmem, rfl⟩
    exact ⟨.override stated, hmem, rfl⟩

theorem mem_spoken : override ∈ spoken layers ↔ ∃ layer ∈ layers, override ∈ Layer.spoken layer :=
  List.mem_flatMap

theorem mem_voices {speaks : Voice Override} :
    speaks ∈ voices layers slot ↔
      ∃ override ∈ spoken layers, slotFor override = slot ∧ speaks = voice override := by
  simp only [voices, List.mem_map, List.mem_filter, decide_eq_true_eq]
  constructor
  · rintro ⟨override, ⟨hmem, hslot⟩, rfl⟩
    exact ⟨override, hmem, hslot, rfl⟩
  · rintro ⟨override, hmem, hslot, rfl⟩
    exact ⟨override, ⟨hmem, hslot⟩, rfl⟩

theorem mem_slots : slot ∈ slots layers ↔ ∃ override ∈ spoken layers, slotFor override = slot := by
  simp [slots]

theorem voices_eq_nil (h : slot ∉ slots layers) : voices layers slot = [] := by
  rw [List.eq_nil_iff_forall_not_mem]
  intro speaks hmem
  obtain ⟨override, hspoken, hslot, _⟩ := mem_voices.mp hmem
  exact h (mem_slots.mpr ⟨override, hspoken, hslot⟩)

theorem voices_append (layers others : List Layer) (slot : Slot) :
    voices (layers ++ others) slot = voices layers slot ++ voices others slot := by
  simp [voices, spoken]

/-- The winner of a slot is one of the ops on it. -/
theorem winner_spoken (h : winner layers slot = some override) :
    override ∈ spoken layers ∧ slotFor override = slot := by
  unfold winner at h
  split at h
  case h_1 hresolve =>
    obtain ⟨stated, hspoken, hslot, hvoice⟩ := mem_voices.mp (winner_mem hresolve).1
    cases h
    rw [hvoice]
    exact ⟨hspoken, hslot⟩
  case h_2 => cases h

theorem winner_of_resolve (h : resolve (voices layers slot) = .winner (voice override)) :
    winner layers slot = some override := by
  unfold winner
  rw [h]
  rfl

theorem winner_of_empty (h : resolve (voices layers slot) = .empty) :
    winner layers slot = none := by
  unfold winner
  rw [h]

theorem winner_mem_slots (h : winner layers slot = some override) : slot ∈ slots layers := by
  obtain ⟨hspoken, hslot⟩ := winner_spoken h
  exact mem_slots.mpr ⟨override, hspoken, hslot⟩

/-! ## The fold -/

section

variable (h : fold layers = .ok winners)

include h

theorem fold_eq_ok : shapeIssues layers = [] ∧ conflictIssues layers = [] ∧
      winners = (slots layers).filterMap fun slot =>
        (winner layers slot).map fun override => (slot, override) := by
  unfold fold at h
  split at h
  case h_1 hissues =>
    obtain ⟨hshape, hconflict⟩ := List.append_eq_nil_iff.mp hissues
    exact ⟨hshape, hconflict, (Except.ok.inj h).symm⟩
  case h_2 => cases h

/-- A fold that succeeds leaves no slot contested. -/
theorem settled (slot : Slot) (weight : Int) : resolve (voices layers slot) ≠ .conflict weight := by
  intro hconflict
  have hslot : slot ∈ slots layers := by
    by_contra hnot
    rw [voices_eq_nil hnot] at hconflict
    cases hconflict
  have hmem : (⟨.weightConflict, some slot.op, some slot.tool, slot.field⟩ : Issue) ∈
      conflictIssues layers := by
    refine List.mem_filterMap.mpr ⟨slot, hslot, ?_⟩
    rw [hconflict]
  rw [(fold_eq_ok h).2.1] at hmem
  cases hmem

theorem mem_winners : (slot, override) ∈ winners ↔ winner layers slot = some override := by
  rw [(fold_eq_ok h).2.2, List.mem_filterMap]
  constructor
  · rintro ⟨other, _, heq⟩
    obtain ⟨stated, hwins, hpair⟩ := Option.map_eq_some_iff.mp heq
    cases hpair
    exact hwins
  · intro hwins
    refine ⟨slot, winner_mem_slots hwins, ?_⟩
    rw [hwins]
    rfl

theorem nodup_keys : (winners.map Prod.fst).Nodup := by
  have hsub : ((slots layers).filterMap fun slot =>
      (winner layers slot).map fun override => (slot, override)).map Prod.fst =
      (slots layers).filter fun slot => (winner layers slot).isSome := by
    induction slots layers with
    | nil => rfl
    | cons slot _ ih => cases hwins : winner layers slot <;> simp [hwins, ih]
  rw [(fold_eq_ok h).2.2, hsub]
  exact (List.nodup_dedup _).filter _

end

theorem lookup_key {override : Override} :
    ∀ {rows : Winners}, (rows.map Prod.fst).Nodup → (slot, override) ∈ rows →
      rows.lookup slot = some override
  | [], _, hmem => by cases hmem
  | (key, value) :: rest, hnodup, hmem => by
    obtain ⟨hfresh, hrest⟩ := List.nodup_cons.mp hnodup
    rcases List.mem_cons.mp hmem with hhead | htail
    · cases hhead
      simp
    · have hne : slot ≠ key := by
        rintro rfl
        exact hfresh (List.mem_map.mpr ⟨_, htail, rfl⟩)
      rw [List.lookup_cons, beq_false_of_ne hne]
      exact lookup_key hrest htail

/-- The map of winners holds the winner of each slot. -/
theorem lookup_winners (h : fold layers = .ok winners) (slot : Slot) :
    winners.lookup slot = winner layers slot := by
  cases hwins : winner layers slot with
  | some => exact lookup_key (nodup_keys h) ((mem_winners h).mpr hwins)
  | none =>
    rw [List.lookup_eq_none_iff]
    rintro ⟨key, override⟩ hrow
    apply bne_iff_ne.mpr
    rintro rfl
    rw [(mem_winners h).mp hrow] at hwins
    cases hwins

variable {top : Override}

/-- An op that none on its slot outweighs, and that no clearing one reaches, wins. -/
theorem winner_of_top (h : fold layers = .ok winners) (hmem : top ∈ spoken layers)
    (hstates : top.inherits = false)
    (hle : ∀ other ∈ spoken layers, slotFor other = slotFor top → other.weight ≤ top.weight)
    (hclear : ∀ other ∈ spoken layers, slotFor other = slotFor top → other.inherits = true →
      other.weight < top.weight) : winner layers (slotFor top) = some top := by
  apply winner_of_resolve
  apply resolve_of_top (mem_voices.mpr ⟨top, hmem, rfl, rfl⟩)
  · refine ⟨hstates, ?_⟩
    intro speaks hspeaks hclears
    obtain ⟨other, hother, hslot, rfl⟩ := mem_voices.mp hspeaks
    exact hclear other hother hslot hclears
  · intro speaks hspeaks
    obtain ⟨other, hother, hslot, rfl⟩ := mem_voices.mp hspeaks
    exact hle other hother hslot
  · exact settled h (slotFor top)

/-- A clearing op that none on its slot outweighs leaves the slot to the base. -/
theorem winner_of_cleared (hmem : top ∈ spoken layers) (hclears : top.inherits = true)
    (hle : ∀ other ∈ spoken layers, slotFor other = slotFor top → other.weight ≤ top.weight) :
    winner layers (slotFor top) = none := by
  apply winner_of_empty
  apply resolve_of_cleared (mem_voices.mpr ⟨top, hmem, rfl, rfl⟩)
  · exact hclears
  · intro speaks hspeaks
    obtain ⟨other, hother, hslot, rfl⟩ := mem_voices.mp hspeaks
    exact hle other hother hslot

/-! ## The winners of one tool -/

/-- `Map.get(by_tool, name, [])`: the rows of the tool. -/
def ofTool (winners : Winners) (name : String) : Winners :=
  winners.filter fun row => row.1.tool = .str name

/-- The ops of the tool. -/
def opsOf (winners : Winners) (name : String) : List Override :=
  (ofTool winners name).map Prod.snd

/-- Under distinct keys the rows of a key are the one row that has it. -/
theorem filter_key :
    ∀ {rows : Winners}, (rows.map Prod.fst).Nodup → (slot, override) ∈ rows →
      (rows.filter fun row => row.1 = slot) = [(slot, override)]
  | [], _, hmem => by cases hmem
  | (key, value) :: rest, hnodup, hmem => by
    obtain ⟨hfresh, hrest⟩ := List.nodup_cons.mp hnodup
    rcases List.mem_cons.mp hmem with hhead | htail
    · cases hhead
      have hnone : (rest.filter fun row => row.1 = slot) = [] := by
        rw [List.filter_eq_nil_iff]
        intro row hrow hkey
        exact hfresh (List.mem_map.mpr ⟨row, hrow, of_decide_eq_true hkey⟩)
      rw [List.filter_cons_of_pos (by simp), hnone]
    · have hne : key ≠ slot := by
        rintro rfl
        exact hfresh (List.mem_map.mpr ⟨_, htail, rfl⟩)
      rw [List.filter_cons_of_neg (by simpa using hne)]
      exact filter_key hrest htail

/-- Of one tool-level kind, the winning ops of a tool are the winner of its slot. -/
theorem filter_opsOf (h : fold layers = .ok winners) (name : String) {op : Op}
    (hop : op.isField = false) :
    ((opsOf winners name).filter fun override => override.op = op) =
      (winner layers ⟨.str name, op, none⟩).toList := by
  have hrows : ((ofTool winners name).filter fun row => row.2.op = op) =
      winners.filter fun row => row.1 = ⟨.str name, op, none⟩ := by
    unfold ofTool
    rw [List.filter_filter]
    apply List.filter_congr
    rintro ⟨slot, override⟩ hrow
    -- the key of a row is the slot of its op
    obtain ⟨_, hslot⟩ := winner_spoken ((mem_winners h).mp hrow)
    subst hslot
    by_cases hkind : override.op = op
    · simp [slotFor, hkind, hop]
    · simp [slotFor, hkind]
  have hops : ((opsOf winners name).filter fun override => override.op = op) =
      (winners.filter fun row => row.1 = ⟨.str name, op, none⟩).map Prod.snd := by
    rw [← hrows, opsOf, List.filter_map]
    rfl
  rw [hops]
  cases hwins : winner layers ⟨.str name, op, none⟩ with
  | none =>
    have hnone : (winners.filter fun row => row.1 = ⟨.str name, op, none⟩) = [] := by
      rw [List.filter_eq_nil_iff]
      rintro ⟨slot, override⟩ hrow hkey
      have hslot : slot = ⟨.str name, op, none⟩ := of_decide_eq_true hkey
      rw [hslot, mem_winners h, hwins] at hrow
      cases hrow
    rw [hnone]
    rfl
  | some =>
    rw [filter_key (nodup_keys h) ((mem_winners h).mpr hwins)]
    rfl

/-- The flag that the layers give a tool, its own if they state none. -/
def flag (layers : List Layer) (name : String) (op : Op) (own : Bool) : Bool :=
  (winner layers ⟨.str name, op, none⟩).toList.foldl Overrides.writeFlag own

/-- The wire name that the layers give a tool. -/
def wireName (layers : List Layer) (name : String) : String :=
  (winner layers ⟨.str name, .setName, none⟩).toList.foldl Overrides.writeName name

variable {spec final : Spec}

/-- The visibility, the callability and the name of a materialized tool. -/
theorem apply_opsOf (h : fold layers = .ok winners)
    (happly : Overrides.apply spec (opsOf winners spec.definition.name) = .ok final) :
    (!final.hidden) = flag layers spec.definition.name .setVisible (!spec.hidden) ∧
      final.callable = flag layers spec.definition.name .setCallable spec.callable ∧
      final.definition.name = wireName layers spec.definition.name := by
  refine ⟨?_, ?_, ?_⟩
  · rw [Overrides.apply_visible happly, filter_opsOf h _ rfl, flag]
  · rw [Overrides.apply_callable happly, filter_opsOf h _ rfl, flag]
  · rw [Overrides.apply_name happly, filter_opsOf h _ rfl, wireName]

end Merge

end NoizuMcp.Toolset
