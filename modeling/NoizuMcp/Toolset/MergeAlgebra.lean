import NoizuMcp.Toolset.Merge

/-!
# The algebra of the merge

The outcome of `Merge.fold/2`, slot by slot: the heaviest op that is heavier than every
`inherit?` op of the slot wins if it is alone, and if it is not, the slot is contested
(`Characterised`). The outcome therefore does not depend on the order of the layers, and
a layer that stays below what decides every slot it touches changes nothing.

Outcomes are compared as what they say of the slots (`SameOutcome`), since the winners are
a map and the conflicts a list in no particular order.
-/

set_option autoImplicit false

namespace NoizuMcp.Toolset.Merge

open Foundation Foundation.Weighing

/-! ## The heaviest ops of a slot -/

/-- The ops on a slot. -/
def opsOn (layers : List Layer) (slot : Slot) : List Override :=
  (spoken layers).filter fun override => slotFor override = slot

/-- The op states something, and is strictly heavier than every `inherit?` op of the slot. -/
def Stands (layers : List Layer) (slot : Slot) (override : Override) : Prop :=
  override.inherits = false ∧
    ∀ other ∈ opsOn layers slot, other.inherits = true → other.weight < override.weight

instance (layers : List Layer) (slot : Slot) : DecidablePred (Stands layers slot) :=
  fun _ => inferInstanceAs (Decidable (_ ∧ ∀ _ ∈ _, _))

variable {layers others : List Layer} {layer : Layer} {slot : Slot} {override : Override}
  {winners : Winners}

/-! ## Ops as voices -/

end NoizuMcp.Toolset.Merge
