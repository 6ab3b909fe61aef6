import Monkey.Related
import Monkey.Store.Reach
import Monkey.Value.Bare

namespace Monkey

namespace Binding

def bare : Binding → Binding
  | .value v => .value v.bare
  | .own f => .own f.bare

variable (scope : ScopeId)

theorem bare_ofValue (v : Value) : (ofValue scope v).bare = ofValue scope v.bare := by
  cases v with
  | function c =>
    rw [Value.bare_function, ofValue, ofValue]
    change (if c.scope = scope then own c.function else value (.function c)).bare =
      if c.scope = scope then own c.function.bare else value (.function c.bare)
    split
    · rfl
    · exact congrArg value (Value.bare_function c)
  | _ => rw [Value.bare]; rfl

theorem toValue_bare (b : Binding) : b.bare.toValue scope = (b.toValue scope).bare := by
  cases b with
  | value v => rfl
  | own f => exact (Value.bare_function ⟨f, scope⟩).symm

theorem addScopes_bare (found : List ScopeId) (b : Binding) : b.bare.addScopes found = b.addScopes found := by
  cases b with
  | value v => exact v.addScopes_bare found
  | own f => rfl

end Binding

namespace Scope

/-- The second scope is the first with bare bindings. -/
structure LaidBare (scope scope' : Scope) : Prop where
  bindings : scope'.bindings.Equiv (scope.bindings.map fun _ b => b.bare)
  outer : scope'.outer = scope.outer
  captured : scope'.captured = scope.captured

variable {scope scope' : Scope}

theorem laidBare_default : LaidBare {} {} where
  bindings := .of_forall_constGet?_eq fun name => by simp
  outer := rfl
  captured := rfl

namespace LaidBare

theorem keys_eq (h : scope.LaidBare scope') : scope'.bindings.keys = scope.bindings.keys := by
  rw [h.bindings.keys_eq, Std.TreeMap.keys_map]

theorem getElem?_eq (h : scope.LaidBare scope') (name : String) :
    scope'.bindings[name]? = scope.bindings[name]?.map Binding.bare := by
  rw [h.bindings.getElem?_eq, Std.TreeMap.getElem?_map]

theorem links_eq (h : scope.LaidBare scope') : scope'.links = scope.links := by
  unfold links
  rw [h.bindings.foldl_eq, Std.TreeMap.foldl_eq_foldl_toList, Std.TreeMap.foldl_eq_foldl_toList,
    Std.TreeMap.toList_map, List.foldl_map, h.outer]
  simp only [Binding.addScopes_bare]

theorem insert (h : scope.LaidBare scope') (name : String) {b b' : Binding} (new : b' = b.bare) :
    LaidBare { scope with bindings := scope.bindings.insert name b }
      { scope' with bindings := scope'.bindings.insert name b' } where
  bindings := .of_forall_constGet?_eq fun name' => by
    rw [Std.TreeMap.getElem?_insert, Std.TreeMap.getElem?_map, Std.TreeMap.getElem?_insert, h.getElem?_eq, new]
    split <;> rfl
  outer := h.outer
  captured := h.captured

end LaidBare

end Scope

namespace Store

/-- The second store is the first with bare scopes. -/
structure LaidBare (s t : Store) : Prop where
  size : t.size = s.size
  scopes : ∀ id : ScopeId, Option.Rel Scope.LaidBare s.scopes[id]? t.scopes[id]?

/-- There is such a store for every store. -/
theorem exists_laidBare (s : Store) : ∃ t, s.LaidBare t := by
  let strip (scope : Scope) : Scope := { scope with bindings := scope.bindings.map fun _ b => b.bare }
  refine ⟨⟨s.scopes.map strip⟩, by simp [Store.size], fun id => ?_⟩
  rw [Array.getElem?_map]
  cases s.scopes[id]? with
  | none => exact .none
  | some scope => exact .some ⟨.rfl, rfl, rfl⟩

namespace LaidBare

variable {s t : Store} (h : s.LaidBare t)
include h

theorem getD_scopes (id : ScopeId) : (s.scopes.getD id {}).LaidBare (t.scopes.getD id {}) := by
  rw [Array.getD_eq_getD_getElem?, Array.getD_eq_getD_getElem?]
  exact getD_related (h.scopes id) Scope.laidBare_default

theorem bound?_eq (id : ScopeId) (name : String) : t.bound? id name = (s.bound? id name).map Value.bare := by
  have scopes := h.scopes id
  unfold bound?
  generalize s.scopes[id]? = here, t.scopes[id]? = here' at scopes ⊢
  cases scopes with
  | none => rfl
  | some laid =>
    dsimp only [Option.bind]
    rw [laid.getElem?_eq, Option.map_map, Option.map_map]
    exact congrArg (Option.map · _) (funext fun b => b.toValue_bare id)

theorem outer?_eq (id : ScopeId) : t.outer? id = s.outer? id := by
  have scopes := h.scopes id
  unfold outer?
  generalize s.scopes[id]? = here, t.scopes[id]? = here' at scopes ⊢
  cases scopes with
  | none => rfl
  | some laid => exact laid.outer

theorem lookup?_eq (name : String) (id : ScopeId) : t.lookup? name id = (s.lookup? name id).map Value.bare := by
  induction id using Nat.strongRecOn with
  | ind id ih =>
    rw [Store.lookup?, Store.lookup?, h.bound?_eq, h.outer?_eq]
    cases s.bound? id name with
    | some v => rfl
    | none =>
      cases s.outer? id with
      | none => rfl
      | some outer =>
        dsimp only [Option.map_none]
        split
        · next lt => exact ih outer lt
        · rfl

theorem bindsLocally_eq (id : ScopeId) (name : String) : t.bindsLocally id name = s.bindsLocally id name := by
  rw [Store.bindsLocally_eq, Store.bindsLocally_eq, h.bound?_eq, Option.isSome_map]

theorem describe_eq (id : ScopeId) : t.describe id = s.describe id := by
  unfold describe
  dsimp only
  rw [(h.getD_scopes id).keys_eq, (h.getD_scopes id).outer]

theorem searchFrom_eq (target : ScopeId) (fuel : Nat) (seen : Std.HashSet ScopeId) (pending : List ScopeId) :
    t.searchFrom target fuel seen pending = s.searchFrom target fuel seen pending := by
  fun_induction Store.searchFrom s target fuel seen pending with
  | case1 => rw [searchFrom.eq_def]
  | case2 => rw [searchFrom.eq_def]; exact if_pos rfl
  | case3 fuel seen id rest other older ih =>
    rw [searchFrom.eq_def, ← ih]
    exact (if_neg other).trans (if_pos older)
  | case4 seen id rest other younger =>
    rw [searchFrom.eq_def]
    exact (if_neg other).trans (if_neg younger)
  | case5 seen id rest other younger fuel ih =>
    rw [searchFrom.eq_def, ← ih, ← (h.getD_scopes id).links_eq]
    exact (if_neg other).trans (if_neg younger)

theorem reaches_eq (v : Value) (target : ScopeId) : t.reaches v.bare target = s.reaches v target := by
  rw [reaches, reaches, h.searchFrom_eq, h.size, Value.scopes_bare]

theorem modify (id : ScopeId) {f f' : Scope → Scope}
    (each : ∀ scope scope' : Scope, scope.LaidBare scope' → (f scope).LaidBare (f' scope')) :
    LaidBare ⟨s.scopes.modify id f⟩ ⟨t.scopes.modify id f'⟩ where
  size := by
    have size := h.size
    unfold Store.size at size ⊢
    rw [Array.size_modify, Array.size_modify, size]
  scopes id' := by
    have scopes := h.scopes id'
    rw [Array.getElem?_modify, Array.getElem?_modify]
    split
    · generalize s.scopes[id']? = here, t.scopes[id']? = here' at scopes ⊢
      cases scopes with
      | none => exact .none
      | some laid => exact .some (each _ _ laid)
    · exact scopes

theorem bind (id : ScopeId) (name : String) (v : Value) : (s.bind id name v).LaidBare (t.bind id name v.bare) :=
  h.modify id fun _ _ laid => laid.insert name (Binding.bare_ofValue id v).symm

theorem capture (id : ScopeId) : (s.capture id).LaidBare (t.capture id) :=
  h.modify id fun _ _ laid => ⟨laid.bindings, laid.outer, rfl⟩

theorem clear (id : ScopeId) : (s.clear id).LaidBare (t.clear id) :=
  h.modify id fun _ _ laid => ⟨Scope.laidBare_default.bindings, laid.outer, laid.captured⟩

theorem enter (outer : Option ScopeId) {bindings bindings' : Std.TreeMap String Value}
    (each : ∀ name : String, bindings'[name]? = bindings[name]?.map Value.bare) :
    (s.enter outer bindings).2.LaidBare (t.enter outer bindings').2 where
  size := by rw [Store.size_enter, Store.size_enter, h.size]
  scopes id := by
    have size : t.scopes.size = s.scopes.size := h.size
    unfold Store.enter
    dsimp only
    rw [Array.getElem?_push, Array.getElem?_push, size]
    split
    · refine .some ⟨.of_forall_constGet?_eq fun name => ?_, rfl, rfl⟩
      rw [Std.TreeMap.getElem?_map, Std.TreeMap.getElem?_map, Std.TreeMap.getElem?_map, each, Option.map_map,
        Option.map_map]
      exact congrArg (Option.map · _) (funext fun v => (Binding.bare_ofValue _ v).symm)
    · exact h.scopes id

end LaidBare

end Store

end Monkey
