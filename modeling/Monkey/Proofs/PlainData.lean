import Monkey.Plain
import Monkey.Proofs.Hereditary

namespace Monkey

namespace Value

theorem plainTable_iff {t : HashTable Value} :
    PlainTable t ↔ (∀ p ∈ t.entries, p.1.Plain ∧ p.2.Plain) ∧
      ∀ (i : Nat) (k v : Value), t.entries[i]? = some (k, v) → ∃ h, k.hashKey? = some h ∧ t.slots[h]? = some i := by
  obtain ⟨⟨ps⟩, slots⟩ := t
  simp only [PlainTable, plainEntries_iff, List.mem_toArray, List.getElem?_toArray]

theorem plainTable_empty : PlainTable {} := by
  refine plainTable_iff.2 ⟨fun p mem => ?_, fun i k v found => ?_⟩
  · simp at mem
  · simp at found

/-- A key that is put in by its own hash key is found by it. -/
theorem PlainTable.insert {t : HashTable Value} {h : HashKey} {key value : Value} (plain : PlainTable t)
    (plainKey : key.Plain) (plainValue : value.Plain) (own : key.hashKey? = some h) :
    PlainTable (t.insert h key value) := by
  obtain ⟨entries, places⟩ := plainTable_iff.1 plain
  refine plainTable_iff.2 ⟨HashTable.forall_entries_insert entries ⟨plainKey, plainValue⟩, ?_⟩
  intro i k v found
  unfold HashTable.insert at found ⊢
  split at found
  · next slot there =>
    rw [Array.getElem?_setIfInBounds] at found
    split at found
    · next same =>
      split at found
      · cases found
        exact ⟨h, own, by rw [← same]; exact there⟩
      · cases found
    · exact places i k v found
  · next absent =>
    rw [Array.getElem?_push] at found
    split at found
    · next last =>
      cases found
      exact ⟨h, own, by rw [last]; simp⟩
    · obtain ⟨h', own', place⟩ := places i k v found
      have other : h ≠ h' := by
        rintro rfl
        rw [absent] at place
        cases place
      refine ⟨h', own', ?_⟩
      rw [Std.HashMap.getElem?_insert, if_neg (by simpa using other)]
      exact place

theorem PlainTable.find? {t : HashTable Value} {h : HashKey} {p : Value × Value} (plain : PlainTable t)
    (found : t.find? h = some p) : p.1.Plain ∧ p.2.Plain :=
  HashTable.of_find? (plainTable_iff.1 plain).1 found

end Value

/-- Operators and built-in functions make plain values of plain ones, so their results are never error values. -/
theorem Value.hereditary_plain : Hereditary Plain where
  int _ := trivial
  bool _ := trivial
  str _ _ := trivial
  null := trivial
  array _ _ := plainElements_iff

/-- Values that can be bound together. -/
def PlainBindings (bindings : Std.TreeMap String Value) : Prop :=
  ∀ (name : String) (v : Value), bindings[name]? = some v → v.Plain

theorem plainBindings_empty : PlainBindings {} := by
  intro name v found
  simp at found

namespace Store

theorem plain_empty : Store.Plain {} := Binds.empty

theorem Plain.enter {s : Store} {outer : Option ScopeId} {bindings : Std.TreeMap String Value} (plain : s.Plain)
    (h : PlainBindings bindings) : (s.enter outer bindings).2.Plain :=
  Binds.enter plain h

theorem Plain.bind {s : Store} {id : ScopeId} {name : String} {v : Value} (plain : s.Plain) (h : v.Plain) :
    (s.bind id name v).Plain :=
  Binds.bind plain h

end Store

end Monkey
