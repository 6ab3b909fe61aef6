import Monkey.Store

namespace Monkey

namespace Value

section Membership

variable {c : ScopeId}

mutual

theorem mem_addScopes {found : List ScopeId} : (v : Value) → (c ∈ v.addScopes found ↔ c ∈ found ∨ c ∈ v.scopes)
  | .ret _ v => by
    simp only [addScopes, scopes]
    exact mem_addScopes v
  | .function d => by
    simp only [addScopes, scopes, List.mem_cons, List.not_mem_nil, or_false]
    exact or_comm
  | .array _ vs => by
    simp only [addScopes, scopes]
    rw [mem_addElementScopes vs, mem_addElementScopes vs]
    simp
  | .hash _ t => by
    simp only [addScopes, scopes]
    rw [mem_addTableScopes t, mem_addTableScopes t]
    simp
  | .int _ | .str .. | .bool _ | .null | .error .. | .builtin _ => by simp [addScopes, scopes]

theorem mem_addElementScopes {found : List ScopeId} :
    (vs : List Value) → (c ∈ addElementScopes found vs ↔ c ∈ found ∨ ∃ v ∈ vs, c ∈ v.scopes)
  | [] => by simp [addElementScopes]
  | v :: vs => by
    rw [addElementScopes, mem_addElementScopes vs, mem_addScopes v]
    simp [or_assoc]

theorem mem_addTableScopes {found : List ScopeId} :
    (t : HashTable Value) → (c ∈ addTableScopes found t ↔ c ∈ found ∨ ∃ p ∈ t.entries, c ∈ p.2.scopes)
  | ⟨⟨ps⟩, _⟩ => by
    rw [addTableScopes, mem_addEntryScopes ps]
    simp

theorem mem_addEntryScopes {found : List ScopeId} :
    (ps : List (Value × Value)) → (c ∈ addEntryScopes found ps ↔ c ∈ found ∨ ∃ p ∈ ps, c ∈ p.2.scopes)
  | [] => by simp [addEntryScopes]
  | (k, v) :: ps => by
    rw [addEntryScopes, mem_addEntryScopes ps, mem_addScopes v]
    simp [or_assoc]

end

@[simp] theorem mem_scopes_ret {id : Identity} {v : Value} : c ∈ (ret id v).scopes ↔ c ∈ v.scopes := Iff.rfl

@[simp] theorem mem_scopes_function {d : Closure} : c ∈ (function d).scopes ↔ c = d.scope := by
  simp [scopes, addScopes]

@[simp] theorem mem_scopes_array {id : Identity} {vs : List Value} :
    c ∈ (array id vs).scopes ↔ ∃ v ∈ vs, c ∈ v.scopes := by
  simp [scopes, addScopes, mem_addElementScopes]

@[simp] theorem mem_scopes_hash {id : Identity} {t : HashTable Value} :
    c ∈ (hash id t).scopes ↔ ∃ p ∈ t.entries, c ∈ p.2.scopes := by
  simp [scopes, addScopes, mem_addTableScopes]

end Membership

/-- All closures in the value are over the first `n` scopes. -/
def Within (n : Nat) (v : Value) : Prop := ∀ c ∈ v.scopes, c < n

section Within

variable {n m : Nat} {v : Value}

theorem Within.mono (h : v.Within n) (le : n ≤ m) : v.Within m :=
  fun c mem => Nat.lt_of_lt_of_le (h c mem) le

@[simp] theorem within_int {k : Int64} : (int k).Within n := fun _ mem => nomatch mem

@[simp] theorem within_str {id : Identity} {text : String} : (str id text).Within n := fun _ mem => nomatch mem

@[simp] theorem within_bool {b : Bool} : (bool b).Within n := fun _ mem => nomatch mem

@[simp] theorem within_null : null.Within n := fun _ mem => nomatch mem

@[simp] theorem within_error {id : Identity} {message : String} : (error id message).Within n :=
  fun _ mem => nomatch mem

@[simp] theorem within_builtin {b : Builtin} : (builtin b).Within n := fun _ mem => nomatch mem

@[simp] theorem within_function {c : Closure} : (function c).Within n ↔ c.scope < n := by
  simp [Within]

@[simp] theorem within_array {id : Identity} {vs : List Value} : (array id vs).Within n ↔ ∀ v ∈ vs, v.Within n := by
  simp only [Within, mem_scopes_array]
  constructor
  · exact fun h v mem c inside => h c ⟨v, mem, inside⟩
  · rintro h c ⟨v, mem, inside⟩
    exact h v mem c inside

@[simp] theorem within_hash {id : Identity} {t : HashTable Value} :
    (hash id t).Within n ↔ ∀ p ∈ t.entries, p.2.Within n := by
  simp only [Within, mem_scopes_hash]
  constructor
  · exact fun h p mem c inside => h c ⟨p, mem, inside⟩
  · rintro h c ⟨p, mem, inside⟩
    exact h p mem c inside

end Within

end Value

namespace Store

/-- Every scope stands in an older one, and every closure that is bound is over a scope of the store. -/
structure Sound (s : Store) : Prop where
  outer_lt : ∀ {id outer : ScopeId}, s.outer? id = some outer → outer < id
  within : ∀ {id : ScopeId} {name : String} {v : Value}, s.bound? id name = some v → v.Within s.size

section Sound

variable {s : Store}

theorem sound_empty : Sound {} where
  outer_lt found := by simp [outer?] at found
  within found := by simp [bound?] at found

theorem Sound.enter {outer : Option ScopeId} {bindings : Std.TreeMap String Value} (sound : s.Sound)
    (around : ∀ id ∈ outer, id < s.size)
    (bound : ∀ (name : String) (v : Value), bindings[name]? = some v → v.Within s.size) :
    (s.enter outer bindings).2.Sound := by
  refine ⟨fun {id outer'} found => ?_, fun {id name v} found => ?_⟩
  · rw [outer?_enter] at found
    split at found
    · next same => exact same ▸ around outer' found
    · exact sound.outer_lt found
  · have old : v.Within s.size := by
      rw [bound?_enter] at found
      split at found
      · exact bound name v found
      · exact sound.within found
    rw [size_enter]
    exact old.mono (Nat.le_succ _)

theorem Sound.bind {id : ScopeId} {name : String} {v : Value} (sound : s.Sound) (within : v.Within s.size) :
    (s.bind id name v).Sound := by
  refine ⟨fun {id' outer} found => ?_, fun {id' name' w} found => ?_⟩
  · rw [outer?_bind] at found
    exact sound.outer_lt found
  · rw [size_bind]
    rw [bound?_bind] at found
    split at found
    · cases found
      exact within
    · exact sound.within found

theorem Sound.capture {id : ScopeId} (sound : s.Sound) : (s.capture id).Sound := by
  refine ⟨fun {id' outer} found => ?_, fun {id' name v} found => ?_⟩
  · rw [outer?_capture] at found
    exact sound.outer_lt found
  · rw [size_capture]
    rw [bound?_capture] at found
    exact sound.within found

theorem Sound.clear {id : ScopeId} (sound : s.Sound) : (s.clear id).Sound := by
  refine ⟨fun {id' outer} found => ?_, fun {id' name v} found => ?_⟩
  · rw [outer?_clear] at found
    exact sound.outer_lt found
  · rw [size_clear]
    rw [bound?_clear] at found
    split at found
    · cases found
    · exact sound.within found

theorem Sound.lookup? {id : ScopeId} {name : String} {v : Value} (sound : s.Sound)
    (found : s.lookup? name id = some v) : v.Within s.size := by
  fun_induction Store.lookup? s name id with
  | case1 id w bound =>
    cases found
    exact sound.within bound
  | case2 => cases found
  | case3 id unbound outer around lt ih => exact ih found
  | case4 => cases found

end Sound

/-- The scope, the scope around it and so on, each older than the last, up to a scope that stands in no other. -/
inductive Chain (s : Store) : ScopeId → List ScopeId → Prop
  | root {id : ScopeId} : id < s.size → s.outer? id = none → Chain s id [id]
  | inside {id outer : ScopeId} {ids : List ScopeId} :
      s.outer? id = some outer → outer < id → Chain s outer ids → Chain s id (id :: ids)

theorem Chain.le {s : Store} {id : ScopeId} {ids : List ScopeId} (chain : s.Chain id ids) :
    ∀ other ∈ ids, other ≤ id := by
  induction chain with
  | root => simp
  | inside _ older _ ih =>
    intro other mem
    rcases List.mem_cons.1 mem with rfl | mem
    · exact Nat.le_refl other
    · exact Nat.le_trans (ih other mem) (Nat.le_of_lt older)

/-- No scope is met twice. -/
theorem Chain.decreasing {s : Store} {id : ScopeId} {ids : List ScopeId} (chain : s.Chain id ids) :
    ids.Pairwise (· > ·) := by
  induction chain with
  | root => exact List.pairwise_singleton ..
  | inside _ older chain ih =>
    exact List.pairwise_cons.2 ⟨fun other mem => Nat.lt_of_le_of_lt (chain.le other mem) older, ih⟩

/-- From every scope of a sound store the chain comes to an end. -/
theorem Sound.exists_chain {s : Store} (sound : s.Sound) {id : ScopeId} (lt : id < s.size) :
    ∃ ids, s.Chain id ids := by
  induction id using Nat.strongRecOn with
  | ind id ih =>
    cases around : s.outer? id with
    | none => exact ⟨[id], .root lt around⟩
    | some outer =>
      have older := sound.outer_lt around
      obtain ⟨ids, chain⟩ := ih outer older (Nat.lt_trans older lt)
      exact ⟨id :: ids, .inside around older chain⟩

/-- From every scope the chain ends and meets no scope twice, and a name means what the first scope of the chain
that binds it says. -/
def ChainsEnd (s : Store) : Prop :=
  ∀ id < s.size, ∃ ids, s.Chain id ids ∧ ids.Pairwise (· > ·) ∧
    ∀ name, s.lookup? name id = ids.findSome? (s.bound? · name)

/-- A name means what the first scope of the chain that binds it says. -/
theorem Chain.lookup?_eq {s : Store} {id : ScopeId} {ids : List ScopeId} (chain : s.Chain id ids) (name : String) :
    s.lookup? name id = ids.findSome? (s.bound? · name) := by
  induction chain with
  | @root id _ around =>
    rw [lookup?, List.findSome?_cons, around]
    cases s.bound? id name <;> rfl
  | @inside id outer ids around older _ ih =>
    rw [lookup?, List.findSome?_cons, around, ← ih]
    cases s.bound? id name with
    | some v => rfl
    | none => simp only [older, dif_pos]

theorem Sound.chainsEnd {s : Store} (sound : s.Sound) : s.ChainsEnd := by
  intro id lt
  obtain ⟨ids, chain⟩ := sound.exists_chain lt
  exact ⟨ids, chain, chain.decreasing, chain.lookup?_eq⟩

end Store

end Monkey
