import Mathlib.Logic.Relation

/-!
# Programs over atomic operations

A request handler that talks to shared state is a tree: each node issues one
atomic operation and continues with its answer. `Prog` is the free monad of such
trees. It says nothing about what an operation does, so the same handler can be
run alone, run against another implementation of the operations, or interleaved
with other handlers.

What a handler does on its own is a property of its *trace*, the list of
operations it has issued with the answers it got. `Prog.Spec` is the program
logic for that: every operation is issued under a condition on the trace so far,
and the result stands in a relation to the whole trace. Answers are arbitrary,
so a specification proved this way holds under every interference.
-/

set_option autoImplicit false

namespace NoizuMcp.Foundation

/-- A sequential program: return, or issue an operation and continue with its
answer. -/
inductive Prog (Op : Type) (Res : Op → Type) (α : Type) : Type where
  | ret (a : α)
  | call (op : Op) (k : Res op → Prog Op Res α)

/-- An issued operation together with its answer. -/
structure Event (Op : Type) (Res : Op → Type) where
  op : Op
  res : Res op

namespace Prog

variable {Op : Type} {Res : Op → Type} {α β : Type}

/-- Sequential composition. -/
def bind : Prog Op Res α → (α → Prog Op Res β) → Prog Op Res β
  | .ret a, f => f a
  | .call op k, f => .call op fun r => (k r).bind f

instance : Monad (Prog Op Res) where
  pure := .ret
  bind := bind

/-- Issue one operation and return its answer. -/
def perform (op : Op) : Prog Op Res (Res op) := .call op .ret

@[simp] theorem pure_eq (a : α) : (pure a : Prog Op Res α) = .ret a := rfl

@[simp] theorem bind_eq (p : Prog Op Res α) (f : α → Prog Op Res β) : p >>= f = p.bind f := rfl

@[simp] theorem ret_bind (a : α) (f : α → Prog Op Res β) : (ret a).bind f = f a := rfl

@[simp] theorem call_bind (op : Op) (k : Res op → Prog Op Res α) (f : α → Prog Op Res β) :
    (call op k).bind f = .call op fun r => (k r).bind f := rfl

/-! ## Specifications over traces -/

/-- From the trace `tr` on, the program issues each operation `op` only when
`P` holds of the trace before it, and `Q` holds of the final trace and the
result. -/
def Spec (P : List (Event Op Res) → Op → Prop) (Q : List (Event Op Res) → α → Prop) :
    List (Event Op Res) → Prog Op Res α → Prop
  | tr, .ret a => Q tr a
  | tr, .call op k => P tr op ∧ ∀ r, Spec P Q (tr ++ [⟨op, r⟩]) (k r)

section SpecRules

variable {P : List (Event Op Res) → Op → Prop}
  {tr : List (Event Op Res)} {Q : List (Event Op Res) → α → Prop} {ε : Type}

@[simp] theorem spec_ret {a : α} : Spec P Q tr (.ret a) ↔ Q tr a := Iff.rfl

@[simp] theorem spec_call {op : Op} {k : Res op → Prog Op Res α} :
    Spec P Q tr (.call op k) ↔ P tr op ∧ ∀ r, Spec P Q (tr ++ [⟨op, r⟩]) (k r) := Iff.rfl

/-- Weakening of the postcondition. -/
theorem Spec.mono {Q' : List (Event Op Res) → α → Prop} (hQ : ∀ tr a, Q tr a → Q' tr a) :
    ∀ {tr : List (Event Op Res)} {p : Prog Op Res α}, Spec P Q tr p → Spec P Q' tr p
  | _, .ret _, h => hQ _ _ h
  | _, .call _ _, h => ⟨h.1, fun r => Spec.mono hQ (h.2 r)⟩

/-- The rule for sequential composition. -/
theorem spec_bind {Q : List (Event Op Res) → β → Prop} {f : α → Prog Op Res β} :
    ∀ {tr : List (Event Op Res)} {p : Prog Op Res α},
      Spec P Q tr (p.bind f) ↔ Spec P (fun tr' a => Spec P Q tr' (f a)) tr p
  | _, .ret _ => Iff.rfl
  | _, .call _ _ => and_congr Iff.rfl (forall_congr' fun _ => spec_bind)

/-- The rule for a program that may fail: a failure ends it. -/
theorem spec_exceptBind {Q : List (Event Op Res) → Except ε β → Prop}
    {x : ExceptT ε (Prog Op Res) α} {f : α → ExceptT ε (Prog Op Res) β} :
    Spec P Q tr (x >>= f).run ↔
      Spec P (fun tr' r => match r with
        | .ok a => Spec P Q tr' (f a).run
        | .error e => Q tr' (.error e)) tr x.run := by
  rw [ExceptT.run_bind, bind_eq, spec_bind]
  constructor <;> exact Spec.mono fun tr' r h => by cases r <;> exact h

theorem spec_map {γ : Type} {Q : List (Event Op Res) → γ → Prop} {f : α → γ} {p : Prog Op Res α} :
    Spec P Q tr (f <$> p) ↔ Spec P (fun tr' a => Q tr' (f a)) tr p :=
  spec_bind

/-- A step that cannot fail, inside a program that may. -/
theorem spec_liftBind {Q : List (Event Op Res) → Except ε β → Prop} {x : Prog Op Res α}
    {f : α → ExceptT ε (Prog Op Res) β} :
    Spec P Q tr ((liftM x : ExceptT ε (Prog Op Res) α) >>= f).run ↔
      Spec P (fun tr' a => Spec P Q tr' (f a).run) tr x := by
  rw [spec_exceptBind]
  exact spec_bind

@[simp] theorem spec_exceptPure {Q : List (Event Op Res) → Except ε α → Prop} {a : α} :
    Spec P Q tr (pure a : ExceptT ε (Prog Op Res) α).run ↔ Q tr (.ok a) := Iff.rfl

end SpecRules

/-! ## Where a program stands after a trace -/

/-- `Follows p tr q`: after the trace `tr`, `q` is what is left of `p`. -/
inductive Follows (p : Prog Op Res α) : List (Event Op Res) → Prog Op Res α → Prop where
  | nil : Follows p [] p
  | snoc {tr : List (Event Op Res)} {op : Op} {k : Res op → Prog Op Res α} (r : Res op) :
      Follows p tr (.call op k) → Follows p (tr ++ [⟨op, r⟩]) (k r)

variable {p q : Prog Op Res α} {Q : List (Event Op Res) → α → Prop}
  {P : List (Event Op Res) → Op → Prop} {tr : List (Event Op Res)} {S : Type}

/-- A specification holds of what is left of the program. -/
theorem Spec.follows (h : Spec P Q [] p) (hf : Follows p tr q) : Spec P Q tr q := by
  induction hf with
  | nil => exact h
  | snoc r _ ih => exact ih.2 r

/-- Every operation of the trace was issued under its condition. -/
theorem Spec.issued (h : Spec P Q [] p) (hf : Follows p tr q) {before after : List (Event Op Res)}
    {e : Event Op Res} (htr : tr = before ++ e :: after) : P before e.op := by
  induction hf generalizing after with
  | nil => simp at htr
  | @snoc tr op k r hf ih =>
    rcases List.eq_nil_or_concat after with rfl | ⟨init, last, rfl⟩
    · obtain ⟨rfl, hlast⟩ := List.append_inj' htr rfl
      obtain rfl : (⟨op, r⟩ : Event Op Res) = e := by simpa using hlast
      exact (h.follows hf).1
    · have hsplit : tr ++ [⟨op, r⟩] = (before ++ e :: init) ++ [last] := by
        simpa using htr
      exact ih (List.append_inj' hsplit rfl).1

/-! ## Running alone -/

/-- Run a program without interference, each operation answered by `exec`. -/
def runAlone {S : Type} (exec : (op : Op) → S → Res op × S) : Prog Op Res α → S → α × S
  | .ret a, s => (a, s)
  | .call op k, s => runAlone exec (k (exec op s).1) (exec op s).2

@[simp] theorem runAlone_ret (exec : (op : Op) → S → Res op × S) (a : α) (s : S) :
    runAlone exec (.ret a) s = (a, s) := rfl

@[simp] theorem runAlone_call (exec : (op : Op) → S → Res op × S) (op : Op)
    (k : Res op → Prog Op Res α) (s : S) :
    runAlone exec (.call op k) s = runAlone exec (k (exec op s).1) (exec op s).2 := rfl

theorem runAlone_bind (exec : (op : Op) → S → Res op × S) (f : α → Prog Op Res β) :
    ∀ (p : Prog Op Res α) (s : S),
      runAlone exec (p.bind f) s = runAlone exec (f (runAlone exec p s).1) (runAlone exec p s).2
  | .ret _, _ => rfl
  | .call op k, s => runAlone_bind exec f (k (exec op s).1) (exec op s).2

/-- What every operation a program may issue leaves alone, a run of it leaves
alone. -/
theorem Spec.runAlone_frame {F : Type} (exec : (op : Op) → S → Res op × S) (f : S → F)
    {K : Op → Prop} (hkeep : ∀ op s, K op → f (exec op s).2 = f s) :
    ∀ {p : Prog Op Res α} {tr : List (Event Op Res)}, Spec (fun _ op => K op) Q tr p → ∀ s,
      f (runAlone exec p s).2 = f s
  | .ret _, _, _, _ => rfl
  | .call op k, _, h, s => by
    rw [runAlone_call, runAlone_frame exec f hkeep (h.2 (exec op s).1), hkeep op s h.1]

/-! ## Running in an environment -/

section Environments

variable {S : Type} {does : (op : Op) → S → Res op → S → Prop} {Q : α → S → Prop}

/-- `Ran does p s a s'`: the program can return `a` in `s'`, where `does` says how an operation
can be answered and what then is the state. -/
inductive Ran (does : (op : Op) → S → Res op → S → Prop) : Prog Op Res α → S → α → S → Prop
  | ret (a : α) (s : S) : Ran does (.ret a) s a s
  | call {op : Op} {k : Res op → Prog Op Res α} {s t u : S} {r : Res op} {a : α}
      (hop : does op s r t) (hrest : Ran does (k r) t a u) : Ran does (.call op k) s a u

/-- However the operations are answered, the program returns only what `Q` allows. -/
def Always (does : (op : Op) → S → Res op → S → Prop) (Q : α → S → Prop) :
    Prog Op Res α → S → Prop
  | .ret a, s => Q a s
  | .call op k, s => ∀ r t, does op s r t → Always does Q (k r) t

theorem always_bind {Q : β → S → Prop} {f : α → Prog Op Res β} :
    ∀ {p : Prog Op Res α} {s : S},
      Always does Q (p.bind f) s ↔ Always does (fun a t => Always does Q (f a) t) p s
  | .ret _, _ => Iff.rfl
  | .call _ _, _ => forall_congr' fun _ => forall_congr' fun _ => imp_congr Iff.rfl always_bind

theorem Always.mono {Q' : α → S → Prop} (hQ : ∀ a t, Q a t → Q' a t) :
    ∀ {p : Prog Op Res α} {s : S}, Always does Q p s → Always does Q' p s
  | .ret _, _, h => hQ _ _ h
  | .call _ _, _, h => fun r t hop => Always.mono hQ (h r t hop)

theorem Always.ran {s t : S} {a : α} (h : Always does Q p s)
    (hran : Ran does p s a t) : Q a t := by
  induction hran with
  | ret => exact h
  | call hop _ ih => exact ih (h _ _ hop)

end Environments

end Prog

end NoizuMcp.Foundation
