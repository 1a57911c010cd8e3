import Mathlib.Data.List.Induction
import NoizuMcp.Foundation.Table

/-!
# The catalog cache of the extension

`cache.rs`: the lists of a server are kept per server, user and slice. `get_or_fetch` looks for an
entry that is young enough, and otherwise fetches the list and stores it. A fetch may run SQL, and
with it other calls, so its end is a step of its own here; times are in nanoseconds.

`items_fresh`: what is returned comes from the call's own fetch, or from one for its key that ended
less than the time to live ago and was not dropped since; a fetch that failed leaves nothing, and
with a time to live of zero every call fetches.
-/

set_option autoImplicit false

namespace NoizuMcp.Pg.CatalogCache

open Foundation

/-- The parts of a catalog. -/
inductive Slice where
  | tools
  | prompts
  | resources
  | resourceTemplates
  | initializeResult
  deriving DecidableEq

variable {Items Err : Type}

/-- What was fetched, and when. -/
structure Entry (Items : Type) where
  fetchedAt : Nat
  items : Items

/-- A foreign server and a user. -/
abbrev Owner := Nat × Nat

/-- The caches by owner and slice. -/
abbrev Caches (Items : Type) := Table Owner (Table Slice (Entry Items))

/-- What the cache has, however old. -/
def cached? (caches : Caches Items) (owner : Owner) (slice : Slice) : Option (Entry Items) :=
  (caches.lookup owner).bind (·.lookup slice)

/-- The entry that is young enough: `ttlMs` is in milliseconds. -/
def hit (caches : Caches Items) (now : Nat) (owner : Owner) (ttlMs : Nat) (slice : Slice) :
    Option Items :=
  if ttlMs = 0 then none
  else ((cached? caches owner slice).filter fun entry =>
    now - entry.fetchedAt < ttlMs * 1000000).map Entry.items

/-- What `get_or_fetch` returns, if its fetch ends with a result. -/
def getOrFetch (caches : Caches Items) (now : Nat) (owner : Owner) (ttlMs : Nat) (slice : Slice)
    (fetch : Except Err Items) : Except Err Items :=
  match hit caches now owner ttlMs slice with
  | some items => .ok items
  | none => fetch

/-- What happens to the caches. -/
inductive Step (Items Err : Type) where
  /-- The fetch of a `get_or_fetch` ends, and its result is stored. -/
  | fetched (owner : Owner) (ttlMs : Nat) (slice : Slice) (result : Except Err Items)
  | dropTools (owner : Owner)
  | drop (owner : Owner)

/-- A failed fetch and a ttl of zero store nothing. -/
def step (caches : Caches Items) : Nat × Step Items Err → Caches Items
  | (now, .fetched owner ttlMs slice (.ok items)) =>
    if ttlMs = 0 then caches
    else caches.insert owner (((caches.lookup owner).getD ∅).insert slice ⟨now, items⟩)
  | (_, .fetched _ _ _ (.error _)) => caches
  | (_, .dropTools owner) =>
    match caches.lookup owner with
    | some server => caches.insert owner (server.erase .tools)
    | none => caches
  | (_, .drop owner) => caches.erase owner

/-- The step drops the entry of a key. -/
def Step.covers (owner : Owner) (slice : Slice) : Step Items Err → Prop
  | .fetched .. => False
  | .dropTools owner' => owner' = owner ∧ slice = .tools
  | .drop owner' => owner' = owner

/-- The caches after some steps, each with its time. -/
def run (steps : List (Nat × Step Items Err)) : Caches Items := steps.foldl step ∅

/-- The steps have fetched the items for the key at a time, and have not dropped them since. -/
def Fetched (steps : List (Nat × Step Items Err)) (owner : Owner) (slice : Slice)
    (entry : Entry Items) : Prop :=
  ∃ before ttlMs after,
    steps = before ++ (entry.fetchedAt, .fetched owner ttlMs slice (.ok entry.items)) :: after ∧
      ∀ s ∈ after, ¬ s.2.covers owner slice

variable {steps : List (Nat × Step Items Err)} {s : Nat × Step Items Err} {caches : Caches Items}
  {owner : Owner} {slice : Slice} {entry : Entry Items}

/-- What an entry can be after a step: the one that was stored, or an old one that was not
dropped. -/
theorem cached?_step (h : cached? (step caches s) owner slice = some entry) :
    (∃ ttlMs, s = (entry.fetchedAt, .fetched owner ttlMs slice (.ok entry.items))) ∨
      (¬ s.2.covers owner slice ∧ cached? caches owner slice = some entry) := by
  obtain ⟨now, s⟩ := s
  unfold step cached? at h
  cases s with
  | fetched _ ttlMs _ result =>
    cases result with
    | error => exact .inr ⟨id, h⟩
    | ok =>
      simp only at h
      split_ifs at h
      · exact .inr ⟨id, h⟩
      · rw [Table.lookup_insert_ite] at h
        split_ifs at h with howner
        · subst howner
          rw [Option.bind_some, Table.lookup_insert_ite] at h
          split_ifs at h with hslice
          · cases h
            exact .inl ⟨ttlMs, by rw [hslice]⟩
          · -- another slice of the owner, whose table may have been made by this step
            refine .inr ⟨id, ?_⟩
            cases hserver : caches.lookup owner with
            | none => simp [hserver] at h
            | some => simpa [cached?, hserver] using h
        · exact .inr ⟨id, h⟩
  | dropTools =>
    simp only at h
    split at h
    case h_1 hserver =>
      rw [Table.lookup_insert_ite] at h
      split_ifs at h with howner
      · subst howner
        rw [Option.bind_some, Table.lookup_erase_ite] at h
        split_ifs at h with hslice
        refine .inr ⟨fun hcovers => hslice hcovers.2, ?_⟩
        rw [cached?, hserver]
        exact h
      · exact .inr ⟨fun hcovers => howner hcovers.1.symm, h⟩
    case h_2 hnone =>
      refine .inr ⟨?_, h⟩
      rintro ⟨rfl, -⟩
      rw [hnone] at h
      cases h
  | drop =>
    simp only at h
    rw [Table.lookup_erase_ite] at h
    split_ifs at h with howner
    · cases h
    · exact .inr ⟨fun hcovers => howner hcovers.symm, h⟩

/-- Every entry comes from a fetch that has not been dropped. -/
theorem fetched_of_cached? (h : cached? (run steps) owner slice = some entry) :
    Fetched steps owner slice entry := by
  -- from the end of the run: the last step stored the entry, or kept it
  induction steps using List.reverseRecOn with
  | nil => cases h
  | append_singleton steps s ih =>
    rw [run, List.foldl_append] at h
    rcases cached?_step h with ⟨ttlMs, rfl⟩ | ⟨hkept, hold⟩
    · exact ⟨steps, ttlMs, [], rfl, fun _ hs => absurd hs List.not_mem_nil⟩
    · obtain ⟨before, ttlMs, after, rfl, hafter⟩ := ih hold
      refine ⟨before, ttlMs, after ++ [s], by simp, fun s' hs' => ?_⟩
      rcases List.mem_append.mp hs' with hs' | hs'
      · exact hafter s' hs'
      · rw [List.mem_singleton.mp hs']
        exact hkept

/-- In every run, items that are returned were fetched by the call, or for its key less than the
time to live ago and not dropped since; a failed fetch is not stored, and a time to live of zero
always fetches. -/
theorem items_fresh (steps : List (Nat × Step Items Err)) (now : Nat) (owner : Owner)
    (slice : Slice) (fetch : Except Err Items) :
    (∀ ttlMs items, getOrFetch (run steps) now owner ttlMs slice fetch = .ok items →
      fetch = .ok items ∨ ∃ fetchedAt, Fetched steps owner slice ⟨fetchedAt, items⟩ ∧
        now - fetchedAt < ttlMs * 1000000) ∧
    (∀ ttlMs e, run (steps ++ [(now, .fetched owner ttlMs slice (.error e))]) = run steps) ∧
    getOrFetch (run steps) now owner 0 slice fetch = fetch := by
  refine ⟨fun ttlMs items h => ?_, fun ttlMs e => ?_, rfl⟩
  · unfold getOrFetch at h
    split at h
    case h_1 hhit =>
      cases h
      unfold hit at hhit
      split_ifs at hhit
      obtain ⟨entry, hentry, rfl⟩ := Option.map_eq_some_iff.mp hhit
      obtain ⟨hfound, hyoung⟩ := Option.filter_eq_some_iff.mp hentry
      exact .inr ⟨_, fetched_of_cached? hfound, of_decide_eq_true hyoung⟩
    case h_2 => exact .inl h
  · rw [run, List.foldl_append]
    rfl

end NoizuMcp.Pg.CatalogCache
