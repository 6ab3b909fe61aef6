import Monkey.Store.Sound

namespace Monkey

namespace Store

structure Frame (own : Option ScopeId) (s t : Store) : Prop where
  size_le : s.size ≤ t.size
  /-- A scope that was there and is not the one evaluated in is the same in all respects. -/
  same : ∀ {id : ScopeId}, id < s.size → own ≠ some id → t.scopes[id]? = s.scopes[id]?
  /-- No scope that was there has come to stand elsewhere. -/
  outer : ∀ {id : ScopeId}, id < s.size → t.outer? id = s.outer? id
  /-- What was bound in a scope is still bound, if perhaps to another value. -/
  bound : ∀ {id : ScopeId} {name : String}, id < s.size → (s.bound? id name).isSome → (t.bound? id name).isSome
  /-- A scope that was opened meanwhile stands in an older one. -/
  opened : ∀ {id : ScopeId}, s.size ≤ id → id < t.size → ∃ outer < id, t.outer? id = some outer

namespace Frame

variable {own own' : Option ScopeId} {s t u : Store}

theorem refl (own : Option ScopeId) (s : Store) : Frame own s s where
  size_le := Nat.le_refl _
  same _ _ := rfl
  outer _ := rfl
  bound _ there := there
  opened old new := absurd new (Nat.not_lt.2 old)

/-- One evaluation after another. Of the scopes of `s`, the second may write only what the first may. -/
theorem trans (first : Frame own s t) (second : Frame own' t u)
    (narrow : ∀ id < s.size, own' = some id → own = some id) : Frame own s u where
  size_le := Nat.le_trans first.size_le second.size_le
  same {id} old other := by
    have there := Nat.lt_of_lt_of_le old first.size_le
    rw [second.same there fun same => other (narrow id old same), first.same old other]
  outer old := by
    rw [second.outer (Nat.lt_of_lt_of_le old first.size_le), first.outer old]
  bound old there := second.bound (Nat.lt_of_lt_of_le old first.size_le) (first.bound old there)
  opened {id} old new := by
    rcases Nat.lt_or_ge id t.size with earlier | later
    · rw [second.outer earlier]
      exact first.opened old earlier
    · exact second.opened later new

theorem enter {outer : ScopeId} {bindings : Std.TreeMap String Value} (around : outer < s.size) :
    Frame none s (s.enter (some outer) bindings).2 where
  size_le := by simp
  same {id} old _ := s.scopes_enter_of_ne id (Nat.ne_of_lt old)
  outer {id} old := by rw [outer?_enter, if_neg (Nat.ne_of_lt old)]
  bound {id name} old there := by rwa [bound?_enter, if_neg (Nat.ne_of_lt old)]
  opened {id} old new := by
    rw [size_enter] at new
    have same : id = s.size := Nat.le_antisymm (Nat.le_of_lt_succ new) old
    exact ⟨outer, same ▸ around, by rw [outer?_enter, if_pos same]⟩

theorem bind (s : Store) (id : ScopeId) (name : String) (v : Value) : Frame (some id) s (s.bind id name v) where
  size_le := by simp
  same {id'} _ other := s.scopes_modify_of_ne id fun same => other (congrArg some same.symm)
  outer _ := by simp
  bound {id' name'} _ there := by
    rw [bound?_bind]
    split
    · rfl
    · exact there
  opened {id'} old new := by
    rw [size_bind] at new
    exact absurd new (Nat.not_lt.2 old)

theorem capture (s : Store) (id : ScopeId) : Frame (some id) s (s.capture id) where
  size_le := by simp
  same {id'} _ other := s.scopes_modify_of_ne id fun same => other (congrArg some same.symm)
  outer _ := by simp
  bound _ there := by rwa [bound?_capture]
  opened {id'} old new := by
    rw [size_capture] at new
    exact absurd new (Nat.not_lt.2 old)

/-- A scope that was not there before may be cleared. -/
theorem clear {id : ScopeId} (h : Frame own s t) (young : s.size ≤ id) : Frame own s (t.clear id) where
  size_le := by simpa using h.size_le
  same {id'} old other := by
    have elder : id' ≠ id := Nat.ne_of_lt (Nat.lt_of_lt_of_le old young)
    exact (t.scopes_modify_of_ne id elder).trans (h.same old other)
  outer {id'} old := by rw [outer?_clear, h.outer old]
  bound {id' name} old there := by
    have elder : id' ≠ id := Nat.ne_of_lt (Nat.lt_of_lt_of_le old young)
    rw [bound?_clear, if_neg elder]
    exact h.bound old there
  opened {id'} old new := by
    rw [size_clear] at new
    rw [outer?_clear]
    exact h.opened old new

end Frame

end Store

end Monkey
