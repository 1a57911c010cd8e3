import Mathlib.Data.Rat.Defs

/-!
# Host terms

The terms a host can put into an override, a schema or a principal. `nil` and the
booleans are atoms of the host language that its code tells apart from the others, so
they are constructors of their own. Whatever has no JSON form is `other`.
-/

set_option autoImplicit false

namespace NoizuMcp.Toolset

/-- A term of the host language. A map has string keys, one field per key. -/
inductive Term where
  | nil
  | bool (b : Bool)
  | int (n : Int)
  | float (q : Rat)
  | str (s : String)
  | atom (name : String)
  | list (items : List Term)
  | map (fields : List (String × Term))
  | other (label : String)
  deriving Inhabited

/-- The fields of a map. -/
abbrev TermMap := List (String × Term)

namespace Term

/-! ## Decidable equality -/

mutual

/-- Structural equality test. -/
def beq : Term → Term → Bool
  | .nil, .nil => true
  | .bool a, .bool b => a == b
  | .int a, .int b => a == b
  | .float a, .float b => a == b
  | .str a, .str b => a == b
  | .atom a, .atom b => a == b
  | .list a, .list b => beqItems a b
  | .map a, .map b => beqFields a b
  | .other a, .other b => a == b
  | _, _ => false

/-- Structural equality test on the items of lists. -/
def beqItems : List Term → List Term → Bool
  | [], [] => true
  | a :: as, b :: bs => beq a b && beqItems as bs
  | _, _ => false

/-- Structural equality test on the fields of maps. -/
def beqFields : List (String × Term) → List (String × Term) → Bool
  | [], [] => true
  | (k, a) :: as, (l, b) :: bs => k == l && beq a b && beqFields as bs
  | _, _ => false

end

mutual

theorem beq_iff : ∀ a b : Term, beq a b = true ↔ a = b
  | .nil, b => by cases b <;> simp [beq]
  | .bool a, b => by cases b <;> simp [beq]
  | .int a, b => by cases b <;> simp [beq]
  | .float a, b => by cases b <;> simp [beq]
  | .str a, b => by cases b <;> simp [beq]
  | .atom a, b => by cases b <;> simp [beq]
  | .list a, b => by cases b <;> simp [beq, beqItems_iff]
  | .map a, b => by cases b <;> simp [beq, beqFields_iff]
  | .other a, b => by cases b <;> simp [beq]

theorem beqItems_iff : ∀ a b : List Term, beqItems a b = true ↔ a = b
  | [], b => by cases b <;> simp [beqItems]
  | a :: as, b => by
    cases b with
    | nil => simp [beqItems]
    | cons b bs => simp [beqItems, beq_iff a b, beqItems_iff as bs]

theorem beqFields_iff : ∀ a b : List (String × Term), beqFields a b = true ↔ a = b
  | [], b => by cases b <;> simp [beqFields]
  | (k, a) :: as, b => by
    cases b with
    | nil => simp [beqFields]
    | cons b bs =>
      obtain ⟨l, b⟩ := b
      simp [beqFields, beq_iff a b, beqFields_iff as bs]

end

instance : DecidableEq Term := fun a b => decidable_of_iff _ (beq_iff a b)

/-! ## Reading -/

/-- `to_string/1` on what an enum or a field name holds: atoms, texts, integers. The text of
a float or of a list is not modelled. -/
def text : Term → String
  | .nil => ""
  | .bool b => toString b
  | .int n => toString n
  | .str s => s
  | .atom name => name
  | _ => ""

mutual

/-- `Jason.encode/1` succeeds. -/
def encodable : Term → Bool
  | .list items => encodableItems items
  | .map fields => encodableFields fields
  | .other _ => false
  | _ => true

/-- Every item of a list can be encoded. -/
def encodableItems : List Term → Bool
  | [] => true
  | item :: rest => encodable item && encodableItems rest

/-- Every field of a map can be encoded. -/
def encodableFields : List (String × Term) → Bool
  | [] => true
  | (_, value) :: rest => encodable value && encodableFields rest

end

end Term

namespace TermMap

/-- `Map.put/3`. -/
def put (key : String) (value : Term) : TermMap → TermMap
  | [] => [(key, value)]
  | (k, v) :: rest => if k = key then (key, value) :: rest else (k, v) :: put key value rest

/-- `Map.delete/2`. -/
def delete (key : String) (fields : TermMap) : TermMap := fields.filter fun field => field.1 != key

/-- `Map.update/4`: the default if the key is absent, else the function on its value. -/
def update (key : String) (default : Term) (f : Term → Term) (fields : TermMap) : TermMap :=
  match fields.lookup key with
  | none => fields.put key default
  | some value => fields.put key (f value)

/-- `Map.merge/2`: the fields of the second win. -/
def merge (first second : TermMap) : TermMap :=
  second.foldl (fun fields field => fields.put field.1 field.2) first

end TermMap

end NoizuMcp.Toolset
