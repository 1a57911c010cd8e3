import NoizuMcp.Foundation.Program

/-!
# Programs under interference

A program runs over a world that others change between its operations. `Under` is a
weakest precondition for it: before each operation the world may have moved in any way
that the program relies on, the operation is done, and what it did must be among what the
program guarantees.
-/

set_option autoImplicit false

namespace NoizuMcp.Foundation

/-- What operations do to a world, what a program relies on between them, and what it
guarantees of each. -/
structure Setting (World Op : Type) (Res : Op → Type) where
  exec : World → (op : Op) → Res op → World → Prop
  rely : World → World → Prop
  guar : World → (op : Op) → Res op → World → Prop

namespace Prog

variable {World Op α β : Type} {Res : Op → Type}

/-- From the world `w` on, every operation of the program is among what it guarantees, and
`Q` holds of its result. -/
def Under (S : Setting World Op Res) (Q : α → World → Prop) : Prog Op Res α → World → Prop
  | .ret a, w => Q a w
  | .call op k, w => ∀ w₁, S.rely w w₁ → ∀ r w₂, S.exec w₁ op r w₂ →
      S.guar w₁ op r w₂ ∧ Under S Q (k r) w₂

variable {S : Setting World Op Res} {Q Q' : α → World → Prop} {w w' : World}

@[simp] theorem under_pure {a : α} : Under S Q (pure a : Prog Op Res α) w ↔ Q a w := Iff.rfl

theorem Under.mono (hQ : ∀ a w, Q a w → Q' a w) :
    ∀ {p : Prog Op Res α} {w : World}, Under S Q p w → Under S Q' p w
  | .ret _, _, h => hQ _ _ h
  | .call _ _, _, h => fun w₁ hrely r w₂ hexec =>
    ⟨(h w₁ hrely r w₂ hexec).1, Under.mono hQ (h w₁ hrely r w₂ hexec).2⟩

/-- The rule for sequential composition. -/
theorem under_bind {Q : β → World → Prop} {f : α → Prog Op Res β} :
    ∀ {p : Prog Op Res α} {w : World},
      Under S Q (p >>= f) w ↔ Under S (fun a w' => Under S Q (f a) w') p w
  | .ret _, _ => Iff.rfl
  | .call _ _, _ => forall_congr' fun _ => forall_congr' fun _ => forall_congr' fun _ =>
    forall_congr' fun _ => forall_congr' fun _ => and_congr Iff.rfl under_bind

/-- What was shown of the first part is used for the second. -/
theorem Under.bind {Q : β → World → Prop} {P : α → World → Prop} {f : α → Prog Op Res β}
    {p : Prog Op Res α} (h : Under S P p w) (hf : ∀ a w', P a w' → Under S Q (f a) w') :
    Under S Q (p >>= f) w :=
  under_bind.mpr (h.mono hf)

/-- The world may move before the program starts, if the result does not mind. -/
theorem Under.rely (htrans : ∀ {u v x}, S.rely u v → S.rely v x → S.rely u x)
    (hQ : ∀ {a u v}, Q a u → S.rely u v → Q a v) {p : Prog Op Res α} (h : Under S Q p w)
    (hrely : S.rely w w') : Under S Q p w' := by
  cases p with
  | ret => exact hQ h hrely
  | call => exact fun w₁ hrely' r w₂ hexec => h w₁ (htrans hrely hrely') r w₂ hexec

end Prog

end NoizuMcp.Foundation
