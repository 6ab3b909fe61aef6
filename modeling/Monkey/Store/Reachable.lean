import Mathlib.Logic.Relation
import Mathlib.Order.Interval.Finset.Nat
import Monkey.Store.Reach
import Monkey.Store.Sound

namespace Monkey

theorem Binding.mem_addScopes {c : ScopeId} {found : List ScopeId} (b : Binding) :
    c ∈ b.addScopes found ↔ c ∈ found ∨ c ∈ b.addScopes [] := by
  cases b with
  | value v => exact Value.mem_addScopes v
  | own f => simp [addScopes]

theorem Scope.mem_links {c : ScopeId} (scope : Scope) :
    c ∈ scope.links ↔
      scope.outer = some c ∨ ∃ (name : String) (b : Binding), scope.bindings[name]? = some b ∧ c ∈ b.addScopes [] := by
  have folded (entries : List (String × Binding)) (found : List ScopeId) :
      c ∈ entries.foldl (fun found e => e.2.addScopes found) found ↔
        c ∈ found ∨ ∃ e ∈ entries, c ∈ e.2.addScopes [] := by
    induction entries generalizing found with
    | nil => simp
    | cons e entries ih =>
      rw [List.foldl_cons, ih, e.2.mem_addScopes, or_assoc, List.exists_mem_cons_iff]
  rw [links, Std.TreeMap.foldl_eq_foldl_toList, folded, Option.mem_toList]
  refine or_congr Iff.rfl ⟨?_, ?_⟩
  · rintro ⟨⟨name, b⟩, mem, inside⟩
    exact ⟨name, b, Std.TreeMap.mem_toList_iff_getElem?_eq_some.1 mem, inside⟩
  · rintro ⟨name, b, bound, inside⟩
    exact ⟨(name, b), Std.TreeMap.mem_toList_iff_getElem?_eq_some.2 bound, inside⟩

namespace Store

variable {s : Store} {id next target : ScopeId}

/-- The scope holds the other: it stands in it, or a closure over it is bound here. -/
def Link (s : Store) (id next : ScopeId) : Prop :=
  s.outer? id = some next ∨ ∃ name v, s.bound? id name = some v ∧ next ∈ v.scopes

/-- The scope stands in the same scope in both stores, and binds the same names to the same values. -/
structure AgreesAt (s t : Store) (id : ScopeId) : Prop where
  outer : s.outer? id = t.outer? id
  bound : ∀ name : String, s.bound? id name = t.bound? id name

/-- From the scope the other is come to by links. -/
def Reachable (s : Store) : ScopeId → ScopeId → Prop := Relation.ReflTransGen s.Link

/-- The scope is come to by links from one of the roots. -/
def ReachableFrom (s : Store) (roots : ScopeId → Prop) (id : ScopeId) : Prop :=
  ∃ root, roots root ∧ s.Reachable root id

/-- From the scope `target` is come to by links, through younger scopes only. -/
inductive LeadsTo (s : Store) (target : ScopeId) : ScopeId → Prop
  | here : LeadsTo s target target
  | link {id next : ScopeId} : target < id → s.Link id next → LeadsTo s target next → LeadsTo s target id

theorem LeadsTo.le (leads : s.LeadsTo target id) : target ≤ id := by
  cases leads with
  | here => exact Nat.le_refl _
  | link young => exact Nat.le_of_lt young

theorem AgreesAt.link {t : Store} (h : s.AgreesAt t id) (link : s.Link id next) : t.Link id next := by
  rcases link with around | ⟨name, v, bound, inside⟩
  · exact .inl (h.outer ▸ around)
  · exact .inr ⟨name, v, h.bound name ▸ bound, inside⟩

theorem lt_size_of_link (link : s.Link id next) : id < s.size := by
  rcases link with around | ⟨_, _, bound, _⟩
  · exact s.lt_size_of_outer? id around
  · exact s.lt_size_of_bound? id bound

theorem Sound.link_lt (sound : s.Sound) (link : s.Link id next) : next < s.size := by
  rcases link with around | ⟨name, v, bound, inside⟩
  · exact Nat.lt_trans (sound.outer_lt around) (s.lt_size_of_outer? id around)
  · exact sound.within bound next inside

/-- Links do not lead out of the store. -/
theorem Sound.lt_of_reachable {root : ScopeId} (sound : s.Sound) (reachable : s.Reachable root id)
    (lt : root < s.size) : id < s.size := by
  cases reachable with
  | refl => exact lt
  | tail _ link => exact sound.link_lt link

/-- What is reachable in one store is reachable in another that agrees on it. -/
theorem Reachable.of_agrees {t : Store} {root : ScopeId} (reachable : s.Reachable root id)
    (agree : ∀ id, s.Reachable root id → s.AgreesAt t id) : t.Reachable root id := by
  induction reachable with
  | refl => exact .refl
  | tail before link ih => exact ih.tail ((agree _ before).link link)

/-- The links that are gone through are links, and none is left out but that of a scope to itself. -/
theorem link_of_mem_links (h : next ∈ (s.scopes.getD id {}).links) : s.Link id next := by
  rw [Array.getD_eq_getD_getElem?, Scope.mem_links] at h
  cases found : s.scopes[id]? with
  | none =>
    rw [found] at h
    simp at h
  | some scope =>
    rw [found] at h
    rcases h with around | ⟨name, b, bound, inside⟩
    · exact .inl (by rw [outer?, found]; exact around)
    · cases b with
      | value v =>
        refine .inr ⟨name, v, ?_, inside⟩
        rw [bound?, found]
        exact congrArg (Option.map _) bound
      | own f => cases inside

theorem mem_links_or_eq (link : s.Link id next) : next ∈ (s.scopes.getD id {}).links ∨ next = id := by
  rw [Array.getD_eq_getD_getElem?, Scope.mem_links]
  rcases link with around | ⟨name, v, bound, inside⟩
  · obtain ⟨scope, found, around⟩ := Option.bind_eq_some_iff.1 around
    rw [found]
    exact .inl (.inl around)
  · obtain ⟨scope, found, bound⟩ := Option.bind_eq_some_iff.1 bound
    obtain ⟨b, kept, rfl⟩ := Option.map_eq_some_iff.1 bound
    rw [found]
    cases b with
    | value v => exact .inl (.inr ⟨name, .value v, kept, inside⟩)
    | own f => exact .inr (Value.mem_scopes_function.1 inside)

/-- The younger scopes of the store that the search has not seen yet. -/
def unseen (s : Store) (target : ScopeId) (seen : Std.HashSet ScopeId) : Finset ScopeId :=
  (Finset.range s.size).filter fun id => target < id ∧ id ∉ seen

/-- A scope that is neither the target nor passed by is one of them. -/
theorem card_unseen_insert {seen : Std.HashSet ScopeId} (other : id ≠ target) (new : ¬(id < target ∨ seen.contains id))
    (lt : id < s.size) : (s.unseen target (seen.insert id)).card + 1 = (s.unseen target seen).card := by
  obtain ⟨notOlder, notSeen⟩ := not_or.1 new
  have there : id ∈ s.unseen target seen := by
    simp only [unseen, Finset.mem_filter, Finset.mem_range]
    exact ⟨lt, Nat.lt_of_le_of_ne (Nat.not_lt.1 notOlder) other.symm, notSeen⟩
  have erased : s.unseen target (seen.insert id) = (s.unseen target seen).erase id := by
    ext other
    simp only [unseen, Finset.mem_filter, Finset.mem_range, Finset.mem_erase, Std.HashSet.mem_insert, beq_iff_eq,
      not_or]
    constructor
    · rintro ⟨lt, young, ne, new⟩
      exact ⟨Ne.symm ne, lt, young, new⟩
    · rintro ⟨ne, lt, young, new⟩
      exact ⟨lt, young, Ne.symm ne, new⟩
  rw [erased, Finset.card_erase_add_one there]

/-- The search, once it has seen some scopes and all links of these are older, seen or pending, finds the target
exactly when a scope that is pending or seen leads to it. -/
theorem searchFrom_iff (sound : s.Sound) {fuel : Nat} {seen : Std.HashSet ScopeId} {pending : List ScopeId}
    (enough : (s.unseen target seen).card ≤ fuel) (within : ∀ id ∈ pending, id < s.size) (apart : target ∉ seen)
    (closed : ∀ id next, id ∈ seen → s.Link id next → next < target ∨ next ∈ seen ∨ next ∈ pending) :
    s.searchFrom target fuel seen pending = true ↔ ∃ id, (id ∈ seen ∨ id ∈ pending) ∧ s.LeadsTo target id := by
  fun_induction searchFrom s target fuel seen pending with
  | case1 fuel seen =>
    refine ⟨nofun, fun ⟨id, there, leads⟩ => ?_⟩
    -- What has been seen is closed but for older scopes, which lead nowhere.
    have stuck : ∀ id, s.LeadsTo target id → id ∉ seen := by
      intro id leads
      induction leads with
      | here => exact apart
      | link young link leads ih =>
        intro mem
        rcases closed _ _ mem link with older | mem | mem
        · exact absurd leads.le (Nat.not_le.2 older)
        · exact ih mem
        · cases mem
    rcases there with mem | mem
    · exact absurd mem (stuck id leads)
    · cases mem
  | case2 fuel seen rest => exact ⟨fun _ => ⟨target, .inr (.head _), .here⟩, fun _ => rfl⟩
  | case3 fuel seen id rest other skipped ih =>
    have closed' : ∀ id' next, id' ∈ seen → s.Link id' next → next < target ∨ next ∈ seen ∨ next ∈ rest := by
      intro id' next mem link
      rcases closed id' next mem link with older | mem | mem
      · exact .inl older
      · exact .inr (.inl mem)
      · rcases List.mem_cons.1 mem with rfl | mem
        · rcases skipped with older | mem
          · exact .inl older
          · exact .inr (.inl (Std.HashSet.mem_iff_contains.2 mem))
        · exact .inr (.inr mem)
    rw [ih enough (fun id mem => within id (.tail _ mem)) apart closed']
    constructor
    · rintro ⟨x, mem | mem, leads⟩
      · exact ⟨x, .inl mem, leads⟩
      · exact ⟨x, .inr (.tail _ mem), leads⟩
    · rintro ⟨x, mem | mem, leads⟩
      · exact ⟨x, .inl mem, leads⟩
      · rcases List.mem_cons.1 mem with rfl | mem
        · rcases skipped with older | mem
          · exact absurd leads.le (Nat.not_le.2 older)
          · exact ⟨x, .inl (Std.HashSet.mem_iff_contains.2 mem), leads⟩
        · exact ⟨x, .inr mem, leads⟩
  | case4 seen id rest other new =>
    -- There is fuel for all that have not been seen, and this is one of them.
    have count := card_unseen_insert other new (within id (.head _))
    rw [Nat.le_zero.1 enough] at count
    cases count
  | case5 seen id rest other new fuel ih =>
    have young : target < id := Nat.lt_of_le_of_ne (Nat.not_lt.1 (not_or.1 new).1) (Ne.symm other)
    have count := card_unseen_insert other new (within id (.head _))
    have enough' : (s.unseen target (seen.insert id)).card ≤ fuel := by omega
    have within' : ∀ id' ∈ (s.scopes.getD id {}).links ++ rest, id' < s.size := by
      intro id' mem
      rcases List.mem_append.1 mem with mem | mem
      · exact sound.link_lt (link_of_mem_links mem)
      · exact within id' (.tail _ mem)
    have apart' : target ∉ seen.insert id := by
      simp only [Std.HashSet.mem_insert, beq_iff_eq, not_or]
      exact ⟨other, apart⟩
    have closed' : ∀ id' next, id' ∈ seen.insert id → s.Link id' next →
        next < target ∨ next ∈ seen.insert id ∨ next ∈ (s.scopes.getD id {}).links ++ rest := by
      intro id' next mem link
      simp only [Std.HashSet.mem_insert, beq_iff_eq, List.mem_append] at mem ⊢
      rcases mem with rfl | mem
      · rcases mem_links_or_eq link with mem | rfl
        · exact .inr (.inr (.inl mem))
        · exact .inr (.inl (.inl rfl))
      · rcases closed id' next mem link with older | mem | mem
        · exact .inl older
        · exact .inr (.inl (.inr mem))
        · rcases List.mem_cons.1 mem with rfl | mem
          · exact .inr (.inl (.inl rfl))
          · exact .inr (.inr (.inr mem))
    rw [ih enough' within' apart' closed']
    simp only [Std.HashSet.mem_insert, beq_iff_eq, List.mem_append]
    constructor
    · rintro ⟨x, (rfl | mem) | mem | mem, leads⟩
      · exact ⟨id, .inr (.head _), leads⟩
      · exact ⟨x, .inl mem, leads⟩
      · exact ⟨id, .inr (.head _), .link young (link_of_mem_links mem) leads⟩
      · exact ⟨x, .inr (.tail _ mem), leads⟩
    · rintro ⟨x, mem | mem, leads⟩
      · exact ⟨x, .inl (.inr mem), leads⟩
      · rcases List.mem_cons.1 mem with rfl | mem
        · exact ⟨x, .inl (.inl rfl), leads⟩
        · exact ⟨x, .inr (.inr mem), leads⟩

/-- The search of a sound store finds the scope exactly when a scope of the value leads to it. -/
theorem reaches_iff (sound : s.Sound) {v : Value} (within : v.Within s.size) :
    s.reaches v target = true ↔ ∃ id ∈ v.scopes, s.LeadsTo target id := by
  have enough : (s.unseen target {}).card ≤ s.size - target := by
    rw [← Nat.card_Ico]
    refine Finset.card_le_card fun id mem => ?_
    simp only [unseen, Finset.mem_filter, Finset.mem_range] at mem
    exact Finset.mem_Ico.2 ⟨Nat.le_of_lt mem.2.1, mem.1⟩
  unfold reaches
  rw [searchFrom_iff sound enough within (by simp) (fun _ _ mem => by simp at mem)]
  simp

end Store

end Monkey
