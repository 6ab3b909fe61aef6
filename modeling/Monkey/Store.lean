import Monkey.Value
import Std.Data.TreeMap

namespace Monkey

/-- What a scope keeps of a value. -/
inductive Binding where
  | value (v : Value)
  /-- A closure over the scope that keeps it: the literal alone, so that no scope holds itself. -/
  | own (f : Function)

namespace Binding

def ofValue (scope : ScopeId) : Value → Binding
  | .function c => if c.scope = scope then .own c.function else .value (.function c)
  | v => .value v

/-- The value that the scope kept. A bare literal is closed over the scope again. -/
def toValue (scope : ScopeId) : Binding → Value
  | .value v => v
  | .own f => .function ⟨f, scope⟩

@[simp] theorem toValue_ofValue (scope : ScopeId) (v : Value) : (ofValue scope v).toValue scope = v := by
  unfold ofValue
  split
  · next c =>
    split
    · next same =>
      subst same
      rfl
    · rfl
  · rfl

/-- Adds the scopes that are kept alive by the binding. -/
def addScopes (found : List ScopeId) : Binding → List ScopeId
  | .value v => v.addScopes found
  | .own _ => found

end Binding

structure Scope where
  bindings : Std.TreeMap String Binding := {}
  outer : Option ScopeId := none
  /-- Whether a closure over the scope has been made. -/
  captured : Bool := false
  deriving Inhabited

/-- All scopes that were ever opened, the oldest first. A scope stands in an older one or in none, and a name means what
the nearest scope binds it to. -/
structure Store where
  scopes : Array Scope := #[]
  deriving Inhabited

namespace Store

def size (s : Store) : Nat := s.scopes.size

/-- What the scope itself binds the name to, outer scopes aside. -/
def bound? (s : Store) (id : ScopeId) (name : String) : Option Value :=
  s.scopes[id]?.bind fun scope => scope.bindings[name]?.map (·.toValue id)

/-- The scope that this one stands in. -/
def outer? (s : Store) (id : ScopeId) : Option ScopeId := s.scopes[id]?.bind (·.outer)

/-- A new scope with these bindings, and the store with it. -/
def enter (s : Store) (outer : Option ScopeId) (bindings : Std.TreeMap String Value) : ScopeId × Store :=
  let id := s.scopes.size
  (id, ⟨s.scopes.push { bindings := bindings.map fun _ v => .ofValue id v, outer }⟩)

/-- What the name means in the scope. -/
def lookup? (s : Store) (name : String) (id : ScopeId) : Option Value :=
  match s.bound? id name with
  | some v => some v
  | none =>
    match s.outer? id with
    | none => none
    | some outer => if _h : outer < id then s.lookup? name outer else none
  termination_by id

/-- Binds the name in this scope, whatever it means outside. -/
def bind (s : Store) (id : ScopeId) (name : String) (v : Value) : Store :=
  ⟨s.scopes.modify id fun scope => { scope with bindings := scope.bindings.insert name (.ofValue id v) }⟩

/-- Whether this scope binds the name, outer scopes aside. -/
def bindsLocally (s : Store) (id : ScopeId) (name : String) : Bool :=
  match s.scopes[id]? with
  | some scope => scope.bindings.contains name
  | none => false

/-- Notes that a closure over the scope is made. -/
def capture (s : Store) (id : ScopeId) : Store :=
  ⟨s.scopes.modify id fun scope => { scope with captured := true }⟩

/-- Takes all bindings out of the scope. -/
def clear (s : Store) (id : ScopeId) : Store :=
  ⟨s.scopes.modify id fun scope => { scope with bindings := {} }⟩

/-- The names that the scope binds, in the order of their characters' numbers, and whether it stands
inside another. -/
def describe (s : Store) (id : ScopeId) : String :=
  let scope := s.scopes.getD id {}
  let names := ", ".intercalate (scope.bindings.keys.map Text.quote)
  let enclosed := if scope.outer.isSome then "true" else "false"
  "Environment \x7b bindings: [" ++ names ++ "], enclosed: " ++ enclosed ++ " \x7d"

theorem bindsLocally_eq (s : Store) (id : ScopeId) (name : String) :
    s.bindsLocally id name = (s.bound? id name).isSome := by
  unfold bindsLocally bound?
  split
  · next scope found => simp [found, Std.TreeMap.isSome_getElem?_eq_contains]
  · next absent => simp [absent]

section Views

variable (s : Store) (id : ScopeId)

@[simp] theorem enter_fst (outer : Option ScopeId) (bindings : Std.TreeMap String Value) :
    (s.enter outer bindings).1 = s.size := rfl

@[simp] theorem size_enter (outer : Option ScopeId) (bindings : Std.TreeMap String Value) :
    (s.enter outer bindings).2.size = s.size + 1 := by
  simp [enter, size]

@[simp] theorem size_bind (name : String) (v : Value) : (s.bind id name v).size = s.size := by
  simp [bind, size]

@[simp] theorem size_capture : (s.capture id).size = s.size := by
  simp [capture, size]

@[simp] theorem size_clear : (s.clear id).size = s.size := by
  simp [clear, size]

theorem scopes_enter_of_ne {outer : Option ScopeId} {bindings : Std.TreeMap String Value} (ne : id ≠ s.size) :
    (s.enter outer bindings).2.scopes[id]? = s.scopes[id]? := by
  unfold enter
  rw [Array.getElem?_push]
  exact if_neg ne

/-- A change of one scope is no change of another. -/
theorem scopes_modify_of_ne {f : Scope → Scope} {id' : ScopeId} (ne : id' ≠ id) :
    (s.scopes.modify id f)[id']? = s.scopes[id']? := by
  rw [Array.getElem?_modify]
  exact if_neg ne.symm

theorem bound?_enter (outer : Option ScopeId) (bindings : Std.TreeMap String Value) (name : String) :
    (s.enter outer bindings).2.bound? id name = if id = s.size then bindings[name]? else s.bound? id name := by
  unfold bound? enter size
  dsimp only
  rw [Array.getElem?_push]
  split
  · next same =>
    subst same
    simp [Option.map_map, Function.comp_def]
  · rfl

theorem outer?_enter (outer : Option ScopeId) (bindings : Std.TreeMap String Value) :
    (s.enter outer bindings).2.outer? id = if id = s.size then outer else s.outer? id := by
  unfold outer? enter size
  dsimp only
  rw [Array.getElem?_push]
  split <;> rfl

theorem bound?_bind (id' : ScopeId) (name name' : String) (v : Value) :
    (s.bind id name v).bound? id' name' =
      if id' = id ∧ name' = name ∧ id < s.size then some v else s.bound? id' name' := by
  unfold bound? bind size
  dsimp only
  rw [Array.getElem?_modify]
  by_cases same : id = id'
  · subst same
    cases found : s.scopes[id]? with
    | none =>
      have outside : ¬ id < s.scopes.size := by simpa using found
      simp [outside]
    | some scope =>
      have inside : id < s.scopes.size := (Array.getElem?_eq_some_iff.1 found).1
      by_cases sameName : name = name'
      · simp [sameName, inside]
      · simp [Std.TreeMap.getElem?_insert, sameName, Ne.symm sameName]
  · simp [same, Ne.symm same]

theorem outer?_modify {f : Scope → Scope} (keeps : ∀ scope, (f scope).outer = scope.outer) (id' : ScopeId) :
    Store.outer? ⟨s.scopes.modify id f⟩ id' = s.outer? id' := by
  unfold outer?
  rw [Array.getElem?_modify]
  split
  · cases s.scopes[id']? with
    | none => rfl
    | some scope => exact keeps scope
  · rfl

@[simp] theorem outer?_bind (id' : ScopeId) (name : String) (v : Value) :
    (s.bind id name v).outer? id' = s.outer? id' := by
  refine s.outer?_modify id (fun _ => ?_) id'
  rfl

@[simp] theorem outer?_capture (id' : ScopeId) : (s.capture id).outer? id' = s.outer? id' := by
  refine s.outer?_modify id (fun _ => ?_) id'
  rfl

@[simp] theorem outer?_clear (id' : ScopeId) : (s.clear id).outer? id' = s.outer? id' := by
  refine s.outer?_modify id (fun _ => ?_) id'
  rfl

@[simp] theorem bound?_capture (id' : ScopeId) (name : String) :
    (s.capture id).bound? id' name = s.bound? id' name := by
  unfold bound? capture
  rw [Array.getElem?_modify]
  split
  · cases s.scopes[id']? <;> rfl
  · rfl

theorem bound?_clear (id' : ScopeId) (name : String) :
    (s.clear id).bound? id' name = if id' = id then none else s.bound? id' name := by
  unfold bound? clear
  rw [Array.getElem?_modify]
  by_cases same : id = id'
  · subst same
    cases s.scopes[id]? <;> simp
  · simp [same, Ne.symm same]

/-- What a scope binds and stands in is there only for a scope that has been opened. -/
theorem lt_size_of_bound? {name : String} {v : Value} (h : s.bound? id name = some v) : id < s.size := by
  obtain ⟨scope, found, _⟩ := Option.bind_eq_some_iff.1 h
  exact (Array.getElem?_eq_some_iff.1 found).1

theorem lt_size_of_outer? {outer : ScopeId} (h : s.outer? id = some outer) : id < s.size := by
  obtain ⟨scope, found, _⟩ := Option.bind_eq_some_iff.1 h
  exact (Array.getElem?_eq_some_iff.1 found).1

theorem bound?_eq_none (outside : s.size ≤ id) (name : String) : s.bound? id name = none := by
  rw [Option.eq_none_iff_forall_ne_some]
  exact fun v found => Nat.not_lt.2 outside (s.lt_size_of_bound? id found)

theorem outer?_eq_none (outside : s.size ≤ id) : s.outer? id = none := by
  rw [Option.eq_none_iff_forall_ne_some]
  exact fun outer found => Nat.not_lt.2 outside (s.lt_size_of_outer? id found)

end Views

end Store

end Monkey
