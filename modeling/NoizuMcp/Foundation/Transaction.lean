import Mathlib.Logic.Basic

/-!
# Transactions

A transaction reads and changes a state and either commits with an answer or raises, and
then the state is as before. `Ensures tx s Q` is its weakest liberal precondition: if
`tx` commits from `s`, then its answer and the state it leaves satisfy `Q`. The rules
below push it through a program; what a transaction ensures for its state holds of the
state after a call whether it commits or not (`Ensures.commit`). `Raises tx s P` is the
same for what it raises.
-/

set_option autoImplicit false

namespace NoizuMcp.Foundation

/-- A transaction on states `σ` that raises `ε` or commits with an answer. -/
abbrev Tx (σ ε : Type) := StateT σ (Except ε)

namespace Tx

variable {σ ε α β : Type} {s : σ} {Q Q' : α → σ → Prop}

/-- Raise if the condition holds. -/
def raiseIf (condition : Prop) [Decidable condition] (e : ε) : Tx σ ε Unit :=
  if condition then throw e else pure ()

/-- Run the program; what it raises goes to the handler, in the state before it. -/
def rescue (tx : Tx σ ε α) (handler : ε → Tx σ ε α) : Tx σ ε α := fun s =>
  match tx.run s with
  | .ok result => .ok result
  | .error e => (handler e).run s

/-- The state after a call, and its answer. -/
def commit (tx : Tx σ ε α) (s : σ) : σ × Except ε α :=
  match tx.run s with
  | .ok (a, s') => (s', .ok a)
  | .error e => (s, .error e)

theorem get_bind_apply (f : σ → Tx σ ε α) : (get >>= f) s = f s s := rfl

variable {e : ε} {condition : Prop} {tx : Tx σ ε α} {a : α} {f : β → Tx σ ε α} {x : Tx σ ε β}
  {R : σ → σ → Prop} {s' : σ}

theorem raiseIf_bind_apply [Decidable condition] (f : Unit → Tx σ ε α) :
    (raiseIf condition e >>= f) s = if condition then .error e else f () s := by
  unfold raiseIf
  split
  case isTrue => rfl
  case isFalse => rfl

/-- If the transaction commits from `s`, its answer and the new state satisfy `Q`. -/
def Ensures (tx : Tx σ ε α) (s : σ) (Q : α → σ → Prop) : Prop :=
  ∀ a s', tx.run s = .ok (a, s') → Q a s'

theorem Ensures.mono (h : Ensures tx s Q) (hQ : ∀ a s', Q a s' → Q' a s') : Ensures tx s Q' :=
  fun a s' hrun => hQ a s' (h a s' hrun)

@[simp] theorem ensures_pure : Ensures (pure a : Tx σ ε α) s Q ↔ Q a s := by
  constructor
  · intro h
    exact h a s rfl
  · rintro h _ _ ⟨⟩
    exact h

@[simp] theorem ensures_bind :
    Ensures (x >>= f) s Q ↔ Ensures x s fun b s' => Ensures (f b) s' Q := by
  have hrun : (x >>= f).run s = x.run s >>= fun next => (f next.1).run next.2 := rfl
  constructor
  · intro h b s' hx a s'' hf
    refine h a s'' ?_
    rw [hrun, hx]
    exact hf
  · intro h a s'' hbind
    rw [hrun] at hbind
    cases hx : x.run s with rw [hx] at hbind
    | error => cases hbind
    | ok next => exact h next.1 next.2 hx a s'' hbind

@[simp] theorem ensures_map {f : β → α} :
    Ensures (f <$> x) s Q ↔ Ensures x s fun b s' => Q (f b) s' := by
  have hmap : f <$> x = x >>= fun b => pure (f b) := (bind_pure_comp f x).symm
  simp only [hmap, ensures_bind, ensures_pure]

@[simp] theorem ensures_throw : Ensures (throw e : Tx σ ε α) s Q ↔ True := by
  refine iff_true_intro ?_
  rintro _ _ ⟨⟩

@[simp] theorem ensures_get : Ensures (get : Tx σ ε σ) s R ↔ R s s := by
  constructor
  · intro h
    exact h s s rfl
  · rintro h _ _ ⟨⟩
    exact h

@[simp] theorem ensures_modify {f : σ → σ} {R : PUnit → σ → Prop} :
    Ensures (modify f : Tx σ ε PUnit) s R ↔ R ⟨⟩ (f s) := by
  constructor
  · intro h
    exact h ⟨⟩ (f s) rfl
  · rintro h _ _ ⟨⟩
    exact h

@[simp] theorem ensures_raiseIf [Decidable condition] {R : Unit → σ → Prop} :
    Ensures (raiseIf condition e : Tx σ ε Unit) s R ↔ (¬ condition → R () s) := by
  unfold raiseIf
  split
  case isTrue h => simp [h]
  case isFalse h => simp [h]

/-- A handler that only raises changes nothing. -/
theorem ensures_rescue {handler : ε → Tx σ ε α} (h : Ensures tx s Q)
    (hhandler : ∀ e, Ensures (handler e) s Q) : Ensures (rescue tx handler) s Q := by
  intro a s' hrun
  have hrescue : (rescue tx handler).run s =
      match tx.run s with
      | .ok result => .ok result
      | .error e => (handler e).run s := rfl
  rw [hrescue] at hrun
  cases htx : tx.run s with rw [htx] at hrun
  | ok =>
    cases hrun
    exact h a s' htx
  | error e => exact hhandler e a s' hrun

/-- A relation that the transaction ensures holds across the call, if it does not mind a
state that stays. -/
theorem Ensures.commit (h : Ensures tx s fun _ s' => R s s') (hrefl : R s s) :
    R s (tx.commit s).1 := by
  unfold Tx.commit
  split
  case h_1 a s' hrun => exact h a s' hrun
  case h_2 => exact hrefl

/-- A property of the state that the transaction ensures, and that held before. -/
theorem Ensures.commit_state {P : σ → Prop} (h : Ensures tx s fun _ s' => P s') (hs : P s) :
    P (tx.commit s).1 := h.commit (R := fun _ s' => P s') hs

/-- What a call that committed ensured. -/
theorem Ensures.of_commit (h : Ensures tx s Q) (hcommit : tx.commit s = (s', .ok a)) : Q a s' := by
  unfold Tx.commit at hcommit
  split at hcommit
  case h_1 hrun =>
    cases hcommit
    exact h _ _ hrun
  case h_2 => cases hcommit

theorem eq_of_commit_error (hcommit : tx.commit s = (s', .error e)) : s' = s := by
  unfold Tx.commit at hcommit
  split at hcommit
  case h_1 => cases hcommit
  case h_2 =>
    cases hcommit
    rfl

theorem commit_map {tx : Tx σ ε β} {f : β → α} :
    ((f <$> tx).commit s).1 = (tx.commit s).1 := by
  have hrun : (f <$> tx).run s = (fun next => (f next.1, next.2)) <$> tx.run s := rfl
  unfold Tx.commit
  rw [hrun]
  cases tx.run s with
  | ok => rfl
  | error => rfl

/-! ## What every statement keeps -/

/-- If the property holds before, it holds after a commit. -/
def Preserves (P : σ → Prop) (tx : Tx σ ε α) : Prop := ∀ s, P s → Ensures tx s fun _ s' => P s'

section Preserves

variable {I : σ → Prop}

theorem preserves_pure : Preserves I (pure a : Tx σ ε α) := by
  intro s hs
  exact ensures_pure.mpr hs

theorem preserves_throw : Preserves I (throw e : Tx σ ε α) := by
  intro s _
  exact ensures_throw.mpr trivial

theorem preserves_get : Preserves I (get : Tx σ ε σ) := by
  intro s hs
  exact ensures_get.mpr hs

theorem preserves_modify {f : σ → σ} (h : ∀ s, I s → I (f s)) :
    Preserves I (modify f : Tx σ ε PUnit) := by
  intro s hs
  exact ensures_modify.mpr (h s hs)

theorem preserves_raiseIf [Decidable condition] :
    Preserves I (raiseIf condition e : Tx σ ε Unit) := by
  intro s hs
  exact ensures_raiseIf.mpr fun _ => hs

variable {x : Tx σ ε β} {tx : Tx σ ε α}

theorem Preserves.bind (hx : Preserves I x) (hf : ∀ b, Preserves I (f b)) :
    Preserves I (x >>= f) := by
  intro s hs
  exact ensures_bind.mpr ((hx s hs).mono fun b s' hs' => hf b s' hs')

theorem Preserves.map {f : β → α} (hx : Preserves I x) : Preserves I (f <$> x) := by
  intro s hs
  exact ensures_map.mpr (hx s hs)

theorem Preserves.commit (h : Preserves I tx) (hs : I s) : I (tx.commit s).1 :=
  (h s hs).commit_state hs

end Preserves

/-! ## Raising -/

/-- If the transaction raises from `s`, what it raises satisfies `P`. -/
def Raises (tx : Tx σ ε α) (s : σ) (P : ε → Prop) : Prop := ∀ e, tx.run s = .error e → P e

variable {P : ε → Prop}

@[simp] theorem raises_pure : Raises (pure a : Tx σ ε α) s P ↔ True := by
  refine iff_true_intro ?_
  rintro _ ⟨⟩

@[simp] theorem raises_bind :
    Raises (x >>= f) s P ↔ Raises x s P ∧ Ensures x s fun b s' => Raises (f b) s' P := by
  have hrun : (x >>= f).run s = x.run s >>= fun next => (f next.1).run next.2 := rfl
  constructor
  · intro h
    constructor
    · intro e hx
      refine h e ?_
      rw [hrun, hx]
      rfl
    · intro b s' hx e hf
      refine h e ?_
      rw [hrun, hx]
      exact hf
  · rintro ⟨hfirst, hsecond⟩ e hbind
    rw [hrun] at hbind
    cases hx : x.run s with rw [hx] at hbind
    | error =>
      cases hbind
      exact hfirst e hx
    | ok next => exact hsecond next.1 next.2 hx e hbind

@[simp] theorem raises_throw : Raises (throw e : Tx σ ε α) s P ↔ P e := by
  constructor
  · intro h
    exact h e rfl
  · rintro h _ ⟨⟩
    exact h

@[simp] theorem raises_get : Raises (get : Tx σ ε σ) s P ↔ True := by
  refine iff_true_intro ?_
  rintro _ ⟨⟩

@[simp] theorem raises_modify {f : σ → σ} : Raises (modify f : Tx σ ε PUnit) s P ↔ True := by
  refine iff_true_intro ?_
  rintro _ ⟨⟩

@[simp] theorem raises_raiseIf [Decidable condition] :
    Raises (raiseIf condition e : Tx σ ε Unit) s P ↔ (condition → P e) := by
  unfold raiseIf
  split
  case isTrue h => simp [h]
  case isFalse h => simp [h]

/-- A call that raised left the state alone. -/
theorem Raises.of_commit (h : Raises tx s P) (hcommit : tx.commit s = (s', .error e)) :
    s' = s ∧ P e := by
  unfold Tx.commit at hcommit
  split at hcommit
  case h_1 => cases hcommit
  case h_2 hrun =>
    cases hcommit
    exact ⟨rfl, h _ hrun⟩

end Tx

end NoizuMcp.Foundation
