import Monkey.Renaming
import Monkey.Store.Reachable

namespace Monkey

namespace Store

section Captured

variable (s : Store) (id : ScopeId)

/-- Whether a closure over the scope has been made. -/
def isCaptured (s : Store) (id : ScopeId) : Bool := (s.scopes.getD id {}).captured

theorem isCaptured_eq_false (outside : s.size ≤ id) : s.isCaptured id = false := by
  unfold isCaptured
  rw [Array.getD_eq_getD_getElem?, Array.getElem?_eq_none outside]
  rfl

@[simp] theorem isCaptured_enter (outer : Option ScopeId) (bindings : Std.TreeMap String Value) :
    (s.enter outer bindings).2.isCaptured id = s.isCaptured id := by
  unfold isCaptured enter
  rw [Array.getD_eq_getD_getElem?, Array.getD_eq_getD_getElem?, Array.getElem?_push]
  split
  · next same => rw [same, Array.getElem?_eq_none (Nat.le_refl _)]; rfl
  · rfl

theorem isCaptured_modify {f : Scope → Scope} (keeps : ∀ scope, (f scope).captured = scope.captured) (id' : ScopeId) :
    isCaptured ⟨s.scopes.modify id f⟩ id' = s.isCaptured id' := by
  unfold isCaptured
  rw [Array.getD_eq_getD_getElem?, Array.getD_eq_getD_getElem?, Array.getElem?_modify]
  split
  · cases s.scopes[id']? with
    | none => rfl
    | some scope => exact keeps scope
  · rfl

@[simp] theorem isCaptured_bind (id' : ScopeId) (name : String) (v : Value) :
    (s.bind id name v).isCaptured id' = s.isCaptured id' := by
  refine s.isCaptured_modify id (fun _ => ?_) id'
  rfl

@[simp] theorem isCaptured_clear (id' : ScopeId) : (s.clear id).isCaptured id' = s.isCaptured id' := by
  refine s.isCaptured_modify id (fun _ => ?_) id'
  rfl

theorem isCaptured_capture (id' : ScopeId) :
    (s.capture id).isCaptured id' = if id' = id ∧ id < s.size then true else s.isCaptured id' := by
  unfold isCaptured capture size
  rw [Array.getD_eq_getD_getElem?, Array.getD_eq_getD_getElem?, Array.getElem?_modify]
  by_cases same : id = id'
  · subst same
    cases found : s.scopes[id]? with
    | none =>
      have outside : ¬ id < s.scopes.size := by simpa using found
      simp [outside]
    | some scope =>
      have inside : id < s.scopes.size := (Array.getElem?_eq_some_iff.1 found).1
      simp [inside]
  · simp [same, Ne.symm same]

end Captured

/-- Where one store leads, the other does, if its links follow those of the one. -/
theorem LeadsTo.transfer {s t : Store} {R : ScopeId → ScopeId → Prop} {target target' : ScopeId}
    (links : ∀ {a b c}, R a b → s.Link a c → ∃ d, t.Link b d ∧ R c d) (same : ∀ {b}, R target b → b = target')
    (younger : ∀ {a b}, R a b → target < a → target' < b) {a b : ScopeId} (leads : s.LeadsTo target a)
    (related : R a b) : t.LeadsTo target' b := by
  induction leads generalizing b with
  | here => exact same related ▸ .here
  | link young link _ ih =>
    obtain ⟨d, link', related'⟩ := links related link
    exact .link (younger related young) link' (ih related')

theorem Reachable.transfer {s t : Store} {R : ScopeId → ScopeId → Prop}
    (links : ∀ {a b c}, R a b → s.Link a c → ∃ d, t.Link b d ∧ R c d) {a b c : ScopeId} (reachable : s.Reachable a c)
    (related : R a b) : ∃ d, t.Reachable b d ∧ R c d := by
  induction reachable with
  | refl => exact ⟨b, .refl, related⟩
  | tail _ link ih =>
    obtain ⟨d, reachable', related'⟩ := ih
    obtain ⟨e, link', related''⟩ := links related' link
    exact ⟨e, reachable'.tail link', related''⟩

theorem ReachableFrom.transfer {s t : Store} {R : ScopeId → ScopeId → Prop} {roots roots' : ScopeId → Prop}
    (links : ∀ {a b c}, R a b → s.Link a c → ∃ d, t.Link b d ∧ R c d)
    (begins : ∀ root, roots root → ∃ root', roots' root' ∧ R root root') {a : ScopeId}
    (reachable : s.ReachableFrom roots a) : ∃ b, R a b ∧ t.ReachableFrom roots' b := by
  obtain ⟨root, mem, path⟩ := reachable
  obtain ⟨root', mem', related⟩ := begins root mem
  obtain ⟨b, path', related'⟩ := path.transfer links related
  exact ⟨b, related', root', mem', path'⟩

end Store

namespace Renaming

/-- The stores have opened as many scopes since they were the same, and are the same where scopes are carried. -/
structure CarriesStore (ρ : Renaming) (n : Nat) (s t : Store) : Prop where
  opened : ∃ k, s.size = ρ.left + k ∧ t.size = ρ.right + k
  outer : ∀ {a b : ScopeId}, ρ.CarriesScope a b → Option.Rel ρ.CarriesScope (s.outer? a) (t.outer? b)
  bound : ∀ {a b : ScopeId} {name : String}, ρ.CarriesScope a b →
    Option.Rel (ρ.Carries n) (s.bound? a name) (t.bound? b name)
  /-- Of scopes that were there when the runs began this is not asked. -/
  captured : ∀ k, s.isCaptured (ρ.left + k) = t.isCaptured (ρ.right + k)

namespace CarriesStore

variable {ρ : Renaming} {n m : Nat} {s t : Store} {a b a' b' : ScopeId} {v w : Value} {name : String}

theorem mono (h : ρ.CarriesStore n s t) (le : n ≤ m) : ρ.CarriesStore m s t where
  opened := h.opened
  outer := h.outer
  bound scope := optionRel_imp (fun _ _ carried => carried.mono le) (h.bound scope)
  captured := h.captured

theorem carriesScope_size (h : ρ.CarriesStore n s t) : ρ.CarriesScope s.size t.size := by
  obtain ⟨k, left, right⟩ := h.opened
  rw [left, right]
  exact .fresh k

/-- A scope is there exactly if the one that it is carried to is. -/
theorem lt_size_iff (h : ρ.CarriesStore n s t) (scope : ρ.CarriesScope a b) : a < s.size ↔ b < t.size :=
  scope.lt_iff h.carriesScope_size

theorem enter (h : ρ.CarriesStore n s t) {outer outer' : Option ScopeId} {bindings bindings' : Std.TreeMap String Value}
    (around : Option.Rel ρ.CarriesScope outer outer')
    (each : ∀ name : String, Option.Rel (ρ.Carries n) bindings[name]? bindings'[name]?) :
    ρ.CarriesStore n (s.enter outer bindings).2 (t.enter outer' bindings').2 where
  opened := by
    obtain ⟨k, left, right⟩ := h.opened
    refine ⟨k + 1, ?_, ?_⟩
    · rw [Store.size_enter, left, Nat.add_assoc]
    · rw [Store.size_enter, right, Nat.add_assoc]
  outer {a b} scope := by
    have new := scope.eq_iff h.carriesScope_size
    rw [Store.outer?_enter, Store.outer?_enter]
    by_cases same : a = s.size
    · rw [if_pos same, if_pos (new.1 same)]
      exact around
    · rw [if_neg same, if_neg fun same' => same (new.2 same')]
      exact h.outer scope
  bound {a b name} scope := by
    have new := scope.eq_iff h.carriesScope_size
    rw [Store.bound?_enter, Store.bound?_enter]
    by_cases same : a = s.size
    · rw [if_pos same, if_pos (new.1 same)]
      exact each name
    · rw [if_neg same, if_neg fun same' => same (new.2 same')]
      exact h.bound scope
  captured k := by
    rw [Store.isCaptured_enter, Store.isCaptured_enter]
    exact h.captured k

theorem bind (h : ρ.CarriesStore n s t) (own : ρ.CarriesScope a b) (name : String) (value : ρ.Carries n v w) :
    ρ.CarriesStore n (s.bind a name v) (t.bind b name w) where
  opened := by
    rw [Store.size_bind, Store.size_bind]
    exact h.opened
  outer {a' b'} scope := by
    rw [Store.outer?_bind, Store.outer?_bind]
    exact h.outer scope
  bound {a' b' name'} scope := by
    have here : (a' = a ∧ name' = name ∧ a < s.size) ↔ (b' = b ∧ name' = name ∧ b < t.size) := by
      rw [scope.eq_iff own, h.lt_size_iff own]
    rw [Store.bound?_bind, Store.bound?_bind]
    by_cases hits : a' = a ∧ name' = name ∧ a < s.size
    · rw [if_pos hits, if_pos (here.1 hits)]
      exact .some value
    · rw [if_neg hits, if_neg fun hits' => hits (here.2 hits')]
      exact h.bound scope
  captured k := by
    rw [Store.isCaptured_bind, Store.isCaptured_bind]
    exact h.captured k

theorem capture (h : ρ.CarriesStore n s t) (own : ρ.CarriesScope a b) :
    ρ.CarriesStore n (s.capture a) (t.capture b) where
  opened := by
    rw [Store.size_capture, Store.size_capture]
    exact h.opened
  outer {a' b'} scope := by
    rw [Store.outer?_capture, Store.outer?_capture]
    exact h.outer scope
  bound {a' b' name} scope := by
    rw [Store.bound?_capture, Store.bound?_capture]
    exact h.bound scope
  captured k := by
    have fresh : ρ.CarriesScope (ρ.left + k) (ρ.right + k) := .fresh k
    have here : (ρ.left + k = a ∧ a < s.size) ↔ (ρ.right + k = b ∧ b < t.size) := by
      rw [fresh.eq_iff own, h.lt_size_iff own]
    rw [Store.isCaptured_capture, Store.isCaptured_capture]
    simp only [here, h.captured k]

theorem clear (h : ρ.CarriesStore n s t) (own : ρ.CarriesScope a b) : ρ.CarriesStore n (s.clear a) (t.clear b) where
  opened := by
    rw [Store.size_clear, Store.size_clear]
    exact h.opened
  outer {a' b'} scope := by
    rw [Store.outer?_clear, Store.outer?_clear]
    exact h.outer scope
  bound {a' b' name} scope := by
    rw [Store.bound?_clear, Store.bound?_clear]
    by_cases same : a' = a
    · rw [if_pos same, if_pos ((scope.eq_iff own).1 same)]
      exact .none
    · rw [if_neg same, if_neg fun same' => same ((scope.eq_iff own).2 same')]
      exact h.bound scope
  captured k := by
    rw [Store.isCaptured_clear, Store.isCaptured_clear]
    exact h.captured k

/-- A name means carried values in scopes that are carried. -/
theorem lookup? (h : ρ.CarriesStore n s t) (scope : ρ.CarriesScope a b) (name : String) :
    Option.Rel (ρ.Carries n) (s.lookup? name a) (t.lookup? name b) := by
  induction a using Nat.strongRecOn generalizing b with
  | ind a ih =>
    have bound : Option.Rel (ρ.Carries n) (s.bound? a name) (t.bound? b name) := h.bound scope
    have outer := h.outer scope
    rw [Store.lookup?, Store.lookup?]
    generalize s.bound? a name = here, t.bound? b name = here' at bound ⊢
    generalize s.outer? a = around, t.outer? b = around' at outer ⊢
    cases bound with
    | some carried => exact .some carried
    | none => cases outer with
      | none => exact .none
      | @some c d scope' =>
        have older := scope'.lt_iff scope
        by_cases lt : c < a
        · simp only [dif_pos lt, dif_pos (older.1 lt)]
          exact ih c lt scope'
        · simp only [dif_neg lt, dif_neg fun lt' => lt (older.2 lt')]
          exact .none

/-- Links are carried to links. -/
theorem link (h : ρ.CarriesStore n s t) {c : ScopeId} (scope : ρ.CarriesScope a b) (link : s.Link a c) :
    ∃ d, t.Link b d ∧ ρ.CarriesScope c d := by
  rcases link with around | ⟨name, v, bound, inside⟩
  · obtain ⟨d, around', scope'⟩ := exists_eq_some (around ▸ h.outer scope)
    exact ⟨d, .inl around', scope'⟩
  · obtain ⟨w, bound', carried⟩ := exists_eq_some (bound ▸ h.bound scope)
    obtain ⟨d, inside', scope'⟩ := exists_related carried.scopes inside
    exact ⟨d, .inr ⟨name, w, bound', inside'⟩, scope'⟩

/-- Only links are carried to links. -/
theorem link_of_carried (h : ρ.CarriesStore n s t) {d : ScopeId} (scope : ρ.CarriesScope a b) (link : t.Link b d) :
    ∃ c, s.Link a c ∧ ρ.CarriesScope c d := by
  rcases link with around | ⟨name, w, bound, inside⟩
  · obtain ⟨c, around', scope'⟩ := exists_some_eq (around ▸ h.outer scope)
    exact ⟨c, .inl around', scope'⟩
  · obtain ⟨v, bound', carried⟩ := exists_some_eq (bound ▸ h.bound scope)
    obtain ⟨c, inside', scope'⟩ := exists_related (List.Forall₂.flip carried.scopes) inside
    exact ⟨c, .inr ⟨name, v, bound', inside'⟩, scope'⟩

theorem leadsTo_iff (h : ρ.CarriesStore n s t) {target target' : ScopeId} (scope : ρ.CarriesScope target target')
    (scope' : ρ.CarriesScope a b) : s.LeadsTo target a ↔ t.LeadsTo target' b := by
  constructor
  · intro leads
    refine leads.transfer h.link (fun again => ?_) (fun other young => ?_) scope'
    · exact (again.eq_iff scope).1 rfl
    · exact (scope.lt_iff other).1 young
  · intro leads
    refine leads.transfer (R := fun b a => ρ.CarriesScope a b) h.link_of_carried (fun again => ?_)
      (fun other young => ?_) scope'
    · exact (again.eq_iff scope).2 rfl
    · exact (scope.lt_iff other).2 young

/-- Whether a scope is found to be reached from a value is the same for both. -/
theorem reaches_eq (h : ρ.CarriesStore n s t) (sound : s.Sound) (sound' : t.Sound) (within : v.Within s.size)
    (within' : w.Within t.size) (carried : ρ.Carries n v w) (scope : ρ.CarriesScope a b) :
    s.reaches v a = t.reaches w b := by
  rw [Bool.eq_iff_iff, Store.reaches_iff sound within, Store.reaches_iff sound' within']
  constructor
  · rintro ⟨c, mem, leads⟩
    obtain ⟨d, mem', scope'⟩ := exists_related carried.scopes mem
    exact ⟨d, mem', (h.leadsTo_iff scope scope').1 leads⟩
  · rintro ⟨d, mem, leads⟩
    obtain ⟨c, mem', scope'⟩ := exists_related (List.Forall₂.flip carried.scopes) mem
    exact ⟨c, mem', (h.leadsTo_iff scope scope').2 leads⟩

end CarriesStore

end Renaming

end Monkey
