import Monkey.Store

namespace Monkey

namespace Value

mutual

/-- No error and no return, and none inside; every key of a hash has its hash key's place in the table. -/
def Plain : Value → Prop
  | .ret .. | .error .. => False
  | .array _ vs => PlainElements vs
  | .hash _ t => PlainTable t
  | _ => True

def PlainElements : List Value → Prop
  | [] => True
  | v :: vs => v.Plain ∧ PlainElements vs

def PlainTable : HashTable Value → Prop
  | ⟨⟨ps⟩, slots⟩ =>
    PlainEntries ps ∧
      ∀ (i : Nat) (k v : Value), ps[i]? = some (k, v) → ∃ h, k.hashKey? = some h ∧ slots[h]? = some i

def PlainEntries : List (Value × Value) → Prop
  | [] => True
  | (k, v) :: ps => k.Plain ∧ v.Plain ∧ PlainEntries ps

end

theorem plainElements_iff {vs : List Value} : PlainElements vs ↔ ∀ v ∈ vs, v.Plain := by
  induction vs with
  | nil => simp [PlainElements]
  | cons v vs ih => simp [PlainElements, ih]

theorem plainEntries_iff {ps : List (Value × Value)} :
    PlainEntries ps ↔ ∀ p ∈ ps, p.1.Plain ∧ p.2.Plain := by
  induction ps with
  | nil => simp [PlainEntries]
  | cons p ps ih => simp [PlainEntries, ih, and_assoc]

end Value

/-- Every scope binds plain values only. -/
def Store.Plain (s : Store) : Prop :=
  ∀ (id : ScopeId) (name : String) (v : Value), s.bound? id name = some v → v.Plain

end Monkey
