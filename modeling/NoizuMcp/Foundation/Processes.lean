import Mathlib.Data.List.Nodup

/-!
# Live processes

Processes that start, change their state and stop. A process is known by the number it
got when it started, and no number is given twice, so whoever holds a number holds a
reference to one process: what that process never gives up (`Stands`) can be relied on
until the process is gone, whatever the others do.
-/

set_option autoImplicit false

namespace NoizuMcp.Foundation

universe u

/-- The processes that are alive, each under its number. -/
structure Processes (α : Type u) where
  live : List (Nat × α) := []
  next : Nat := 0
  started : ∀ entry ∈ live, entry.1 < next := by simp
  distinct : (live.map Prod.fst).Nodup := by simp

namespace Processes

variable {α : Type u} {processes : Processes α} {pid other : Nat} {a b : α} {K : α → Prop}

/-- No process has started. -/
def empty : Processes α := {}

/-- A new process. -/
def spawn (processes : Processes α) (a : α) : Processes α where
  live := processes.live ++ [(processes.next, a)]
  next := processes.next + 1
  started := by
    intro entry hentry
    rcases List.mem_append.mp hentry with hold | hnew
    · exact Nat.lt_succ_of_lt (processes.started entry hold)
    · rw [List.mem_singleton.mp hnew]
      exact Nat.lt_succ_self _
  distinct := by
    rw [List.map_append, List.nodup_append]
    refine ⟨processes.distinct, List.nodup_singleton _, ?_⟩
    rintro _ hold _ hnew rfl
    obtain ⟨entry, hentry, heq⟩ := List.mem_map.mp hold
    have hlt := processes.started entry hentry
    have hnext : entry.1 = processes.next := heq.trans (List.mem_singleton.mp hnew)
    omega

/-- A process stops. -/
def kill (processes : Processes α) (pid : Nat) : Processes α where
  live := processes.live.filter fun entry => entry.1 != pid
  next := processes.next
  started := fun entry hentry => processes.started entry (List.mem_of_mem_filter hentry)
  distinct := (List.filter_sublist.map Prod.fst).nodup processes.distinct

/-- The state of a process that is alive. -/
def get? (processes : Processes α) (pid : Nat) : Option α :=
  (processes.live.find? fun entry => entry.1 == pid).map Prod.snd

/-- The first process that passes a test. -/
def find? (processes : Processes α) (test : α → Bool) : Option Nat :=
  (processes.live.find? fun entry => test entry.2).map Prod.fst

/-! ## Who is alive -/

theorem mem_spawn :
    (pid, a) ∈ (processes.spawn b).live ↔
      (pid, a) ∈ processes.live ∨ pid = processes.next ∧ a = b := by
  simp [spawn]

theorem mem_kill :
    (pid, a) ∈ (processes.kill other).live ↔ (pid, a) ∈ processes.live ∧ pid ≠ other := by
  simp [kill]

theorem mem_of_get? (h : processes.get? pid = some a) : (pid, a) ∈ processes.live := by
  obtain ⟨⟨number, _⟩, hfind, rfl⟩ := Option.map_eq_some_iff.mp h
  have hnumber : number = pid := by simpa using List.find?_some hfind
  rw [← hnumber]
  exact List.mem_of_find?_eq_some hfind

/-- Two entries under one number are one process. -/
theorem eq_of_mem (ha : (pid, a) ∈ processes.live) (hb : (pid, b) ∈ processes.live) : a = b := by
  have heq := List.inj_on_of_nodup_map processes.distinct ha hb rfl
  exact congrArg Prod.snd heq

/-! ## How many there are -/

/-- The number of live processes that pass a test. -/
def count (processes : Processes α) (test : α → Bool) : Nat :=
  processes.live.countP fun entry => test entry.2

theorem count_spawn (processes : Processes α) (test : α → Bool) (a : α) :
    (processes.spawn a).count test = processes.count test + if test a then 1 else 0 := by
  simp [count, spawn]

theorem count_kill_le (processes : Processes α) (test : α → Bool) (pid : Nat) :
    (processes.kill pid).count test ≤ processes.count test :=
  List.filter_sublist.countP_le

/-- A process that stops is counted no more, and every other is. -/
theorem count_kill (test : α → Bool) (h : (pid, a) ∈ processes.live) :
    (processes.kill pid).count test + (if test a then 1 else 0) = processes.count test := by
  obtain ⟨before, after, hlive⟩ := List.append_of_mem h
  have hdistinct := processes.distinct
  rw [hlive, List.map_append, List.map_cons, List.nodup_append, List.nodup_cons] at hdistinct
  obtain ⟨-, ⟨hafter, -⟩, hbefore⟩ := hdistinct
  -- The number stands nowhere else in the list.
  have hkept : ∀ part : List (Nat × α), pid ∉ part.map Prod.fst →
      part.filter (fun entry => entry.1 != pid) = part := by
    intro part hpart
    refine List.filter_eq_self.mpr fun entry hentry => bne_iff_ne.mpr ?_
    rintro rfl
    exact hpart (List.mem_map_of_mem hentry)
  have hkill : (processes.kill pid).live = before ++ after := by
    change processes.live.filter _ = _
    rw [hlive, List.filter_append, List.filter_cons_of_neg (by simp), hkept after hafter,
      hkept before fun hmem => hbefore pid hmem pid List.mem_cons_self rfl]
  simp only [count, hkill, hlive, List.countP_append, List.countP_cons]
  omega

/-! ## What can be relied on -/

/-- The number belongs to a process that has started and, while it is alive, is a `K`. -/
structure Stands (processes : Processes α) (pid : Nat) (K : α → Prop) : Prop where
  started : pid < processes.next
  holds : ∀ a, (pid, a) ∈ processes.live → K a

theorem stands_of_find? {test : α → Bool} (h : processes.find? test = some pid) :
    processes.Stands pid fun a => test a = true := by
  obtain ⟨⟨_, a⟩, hfind, rfl⟩ := Option.map_eq_some_iff.mp h
  have hmem := List.mem_of_find?_eq_some hfind
  have htest := List.find?_some hfind
  refine ⟨processes.started _ hmem, fun b hb => ?_⟩
  rw [← eq_of_mem hmem hb]
  exact htest

theorem Stands.mono {K' : α → Prop} (h : processes.Stands pid K) (himp : ∀ a, K a → K' a) :
    processes.Stands pid K' :=
  ⟨h.started, fun a ha => himp a (h.holds a ha)⟩

/-- A new process never takes the number of another. -/
theorem Stands.spawn (h : processes.Stands pid K) (b : α) : (processes.spawn b).Stands pid K := by
  refine ⟨Nat.lt_succ_of_lt h.started, fun a ha => ?_⟩
  rcases mem_spawn.mp ha with hold | ⟨rfl, _⟩
  · exact h.holds a hold
  · exact absurd h.started (Nat.lt_irrefl _)

theorem Stands.kill (h : processes.Stands pid K) (other : Nat) :
    (processes.kill other).Stands pid K :=
  ⟨h.started, fun a ha => h.holds a (mem_kill.mp ha).1⟩

end Processes

end NoizuMcp.Foundation
