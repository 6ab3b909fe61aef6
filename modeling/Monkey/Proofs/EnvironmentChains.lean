import Mathlib.Data.List.Forall2
import Monkey.Environments
import Monkey.Store.Sound

namespace Monkey

theorem Closure.same_self (c : Closure) : c.same c = true := by
  simp [Closure.same, Function.sameLiteral]

namespace Value

theorem identical_self (v : Value) : v.identical v = true := by
  cases v <;> simp [identical, Closure.same_self]

mutual

theorem equal_self : (v : Value) → v.equal v = true
  | .ret _ v => by rw [equal, equal_self v]
  | .array _ vs => by rw [equal, equalElements_self vs]
  | .hash _ t => by rw [equal, equalTables_self t]
  | .function c => by rw [equal, c.same_self]
  | .int _ | .str .. | .bool _ | .null | .error .. | .builtin _ => by simp [equal]

theorem equalElements_self : (vs : List Value) → equalElements vs vs = true
  | [] => by rw [equalElements]
  | v :: vs => by rw [equalElements, equal_self v, equalElements_self vs, Bool.and_self]

theorem equalTables_self : (t : HashTable Value) → equalTables t t = true
  | ⟨⟨ps⟩, _⟩ => by rw [equalTables, HashTable.toList, equalEntries_self ps]

theorem equalEntries_self : (ps : List (Value × Value)) → equalEntries ps ps = true
  | [] => by rw [equalEntries]
  | (k, v) :: ps => by
    rw [equalEntries, equal_self k, equal_self v, equalEntries_self ps, Bool.and_self, Bool.and_self]

end

/-- Whether they are one object and whether they have the same content, both is answered by yes, and they are shown
alike. -/
def Indistinguishable (v w : Value) : Prop := v.identical w = true ∧ v.equal w = true ∧ v.inspect = w.inspect

theorem Indistinguishable.refl (v : Value) : v.Indistinguishable v := ⟨v.identical_self, v.equal_self, rfl⟩

end Value

inductive Answer.Agrees : Answer → Answer → Prop
  | done : Agrees .done .done
  | noHandle : Agrees .noHandle .noHandle
  | nothing : Agrees (.found none) (.found none)
  | found {v w : Value} : v.Indistinguishable w → Agrees (.found (some v)) (.found (some w))
  | bound (b : Bool) : Agrees (.bound b) (.bound b)

theorem Answer.agrees_self (a : Answer) : a.Agrees a := by
  cases a with
  | done => exact .done
  | noHandle => exact .noHandle
  | bound b => exact .bound b
  | found v =>
    cases v with
    | none => exact .nothing
    | some v => exact .found (.refl v)

/-- A scope, and the scope that it stands in, if it stands in one. -/
inductive PlainHandle where
  | root (id : ScopeId)
  | inside (id : ScopeId) (outer : PlainHandle)

namespace PlainHandle

def id : PlainHandle → ScopeId
  | .root id | .inside id _ => id

/-- The scopes from this one on outward. -/
def scopes : PlainHandle → List ScopeId
  | .root id => [id]
  | .inside id outer => id :: outer.scopes

end PlainHandle

/-- For every scope what was set in it, the last first. -/
structure PlainScopes where
  opened : Nat := 0
  entries : ScopeId → List (String × Value) := fun _ => []

namespace PlainScopes

def enter (outer : Option PlainHandle) (s : PlainScopes) : PlainHandle × PlainScopes :=
  (outer.elim (.root s.opened) (.inside s.opened), { s with opened := s.opened + 1 })

def set (h : PlainHandle) (name : String) (v : Value) (s : PlainScopes) : PlainScopes :=
  { s with entries := fun id => if id = h.id then (name, v) :: s.entries id else s.entries id }

def get (name : String) (s : PlainScopes) : PlainHandle → Option Value
  | .root id => (s.entries id).lookup name
  | .inside id outer => ((s.entries id).lookup name).or (s.get name outer)

def containsLocal (h : PlainHandle) (name : String) (s : PlainScopes) : Bool := ((s.entries h.id).lookup name).isSome

def system : ScopeSystem PlainScopes PlainHandle where
  enter := enter
  set := set
  get h name s := s.get name h
  containsLocal := containsLocal

theorem get_eq (s : PlainScopes) (name : String) (h : PlainHandle) :
    s.get name h = h.scopes.findSome? fun id => (s.entries id).lookup name := by
  induction h with
  | root id =>
    rw [get, PlainHandle.scopes, List.findSome?_cons]
    cases (s.entries id).lookup name <;> rfl
  | inside id outer ih =>
    rw [get, PlainHandle.scopes, List.findSome?_cons, ih]
    cases (s.entries id).lookup name <;> rfl

end PlainScopes

namespace Store

section Chains

variable {s : Store} {id own : ScopeId} {ids : List ScopeId}

theorem Chain.lt_size (chain : s.Chain id ids) : id < s.size := by
  cases chain with
  | root lt => exact lt
  | inside around => exact s.lt_size_of_outer? _ around

theorem Chain.exists_eq_cons (chain : s.Chain id ids) : ∃ around, ids = id :: around := by
  cases chain with
  | root => exact ⟨[], rfl⟩
  | inside => exact ⟨_, rfl⟩

theorem Chain.enter (chain : s.Chain id ids) (outer : Option ScopeId) (bindings : Std.TreeMap String Value) :
    (s.enter outer bindings).2.Chain id ids := by
  induction chain with
  | @root id lt around =>
    refine .root ?_ ?_
    · rw [size_enter]
      exact Nat.lt_succ_of_lt lt
    · rw [outer?_enter, if_neg (Nat.ne_of_lt lt), around]
  | @inside id outer' ids around older _ ih =>
    have lt := s.lt_size_of_outer? id around
    refine .inside ?_ older ih
    rw [outer?_enter, if_neg (Nat.ne_of_lt lt), around]

theorem Chain.bind (chain : s.Chain id ids) (own : ScopeId) (name : String) (v : Value) :
    (s.bind own name v).Chain id ids := by
  induction chain with
  | root lt around => exact .root (by rwa [size_bind]) (by rwa [outer?_bind])
  | inside around older _ ih => exact .inside (by rwa [outer?_bind]) older ih

end Chains

section Bind

variable {s : Store} {id own : ScopeId} {ids : List ScopeId} {name : String} {v : Value}

/-- What is bound in a scope is not seen from where that scope is not on the chain. -/
theorem Chain.lookup?_bind_of_not_mem (chain : s.Chain id ids) (outside : own ∉ ids) (name' : String) :
    (s.bind own name v).lookup? name' id = s.lookup? name' id := by
  rw [(chain.bind own name v).lookup?_eq, chain.lookup?_eq, ← List.head?_filterMap, ← List.head?_filterMap]
  refine congrArg List.head? (List.filterMap_congr fun other mem => ?_)
  have ne : other ≠ own := fun same => outside (same ▸ mem)
  rw [bound?_bind, if_neg fun same => ne same.1]

/-- Nor is it seen under another name. -/
theorem Chain.lookup?_bind_of_ne (chain : s.Chain id ids) {name' : String} (ne : name' ≠ name) :
    (s.bind own name v).lookup? name' id = s.lookup? name' id := by
  rw [(chain.bind own name v).lookup?_eq, chain.lookup?_eq, ← List.head?_filterMap, ← List.head?_filterMap]
  refine congrArg List.head? (List.filterMap_congr fun other _ => ?_)
  rw [bound?_bind, if_neg fun same => ne same.2.1]

/-- On the chain it is seen unless a scope further in binds the name. -/
theorem Chain.lookup?_bind {before after : List ScopeId} (chain : s.Chain id (before ++ own :: after))
    (lt : own < s.size) :
    (s.bind own name v).lookup? name id =
      if before.any (s.bindsLocally · name) then s.lookup? name id else some v := by
  have apart : own ∉ before := by
    intro mem
    have order := (List.pairwise_append.1 chain.decreasing).2.2 own mem own (.head _)
    exact Nat.lt_irrefl own order
  have inner :
      before.findSome? (fun id => (s.bind own name v).bound? id name) = before.findSome? (s.bound? · name) := by
    rw [← List.head?_filterMap, ← List.head?_filterMap]
    refine congrArg List.head? (List.filterMap_congr fun other mem => ?_)
    have ne : other ≠ own := fun same => apart (same ▸ mem)
    rw [bound?_bind, if_neg fun same => ne same.1]
  have here : (s.bind own name v).bound? own name = some v := by
    rw [bound?_bind, if_pos ⟨rfl, rfl, lt⟩]
  have shadowed_iff : before.any (s.bindsLocally · name) = (before.findSome? (s.bound? · name)).isSome := by
    rw [List.isSome_findSome?]
    exact List.any_congr rfl fun other => s.bindsLocally_eq other name
  rw [(chain.bind own name v).lookup?_eq, chain.lookup?_eq, List.findSome?_append, List.findSome?_append, inner,
    List.findSome?_cons, here, shadowed_iff]
  cases before.findSome? (s.bound? · name) with
  | some w => rfl
  | none => rfl

end Bind

end Store

/-- The plain handle stands for the scope: it has the same number, and the same scopes around it. -/
def PlainHandle.StandsFor (s : Store) (id : ScopeId) (h : PlainHandle) : Prop := h.id = id ∧ s.Chain id h.scopes

namespace PlainHandle.StandsFor

variable {s : Store} {id : ScopeId} {h : PlainHandle}

theorem enter (stands : h.StandsFor s id) (outer : Option ScopeId) : h.StandsFor (s.enter outer {}).2 id :=
  ⟨stands.1, stands.2.enter outer {}⟩

theorem bind (stands : h.StandsFor s id) (own : ScopeId) (name : String) (v : Value) :
    h.StandsFor (s.bind own name v) id :=
  ⟨stands.1, stands.2.bind own name v⟩

end PlainHandle.StandsFor

/-- The store and the plain scopes bind the same names to the same values. -/
structure Store.Matches (s : Store) (m : PlainScopes) : Prop where
  opened : m.opened = s.size
  bound : ∀ id name, (m.entries id).lookup name = s.bound? id name

namespace Store.Matches

variable {s : Store} {m : PlainScopes} {id : ScopeId} {h : PlainHandle}

theorem enter (same : s.Matches m) (outer : Option ScopeId) (outer' : Option PlainHandle) :
    (s.enter outer {}).2.Matches (m.enter outer').2 where
  opened := by
    rw [size_enter, ← same.opened]
    rfl
  bound id name := by
    change (m.entries id).lookup name = _
    rw [same.bound, bound?_enter]
    split
    · next new =>
      -- A scope that has not been opened binds nothing.
      have absent : s.bound? id name = none := by
        refine Option.eq_none_iff_forall_ne_some.2 fun v found => ?_
        exact Nat.lt_irrefl _ (new ▸ s.lt_size_of_bound? id found)
      rw [absent, Std.TreeMap.getElem?_emptyc]
    · rfl

/-- The plain handle to a scope that is opened stands for it, inside a scope that a handle stands for. -/
theorem standsFor_inside (same : s.Matches m) (stands : h.StandsFor s id) :
    (PlainHandle.inside m.opened h).StandsFor (s.enter (some id) {}).2 s.size := by
  rw [same.opened]
  refine ⟨rfl, .inside ?_ stands.2.lt_size (stands.2.enter _ _)⟩
  rw [outer?_enter, if_pos rfl]

theorem standsFor_root (same : s.Matches m) :
    (PlainHandle.root m.opened).StandsFor (s.enter none {}).2 s.size := by
  rw [same.opened]
  refine ⟨rfl, .root ?_ ?_⟩
  · rw [size_enter]
    exact Nat.lt_succ_self _
  · rw [outer?_enter, if_pos rfl]

theorem bind (same : s.Matches m) (stands : h.StandsFor s id) (name : String) (v : Value) :
    (s.bind id name v).Matches (m.set h name v) where
  opened := by
    rw [size_bind, ← same.opened]
    rfl
  bound id' name' := by
    have own : h.id = id := stands.1
    rw [bound?_bind, PlainScopes.set, own]
    dsimp only
    by_cases scope : id' = id
    · rw [if_pos scope, List.lookup_cons]
      by_cases sameName : name' = name
      · rw [if_pos ⟨scope, sameName, stands.2.lt_size⟩, sameName, BEq.rfl]
      · rw [if_neg fun all => sameName all.2.1, beq_false_of_ne sameName]
        exact same.bound id' name'
    · rw [if_neg scope, if_neg fun all => scope all.1]
      exact same.bound id' name'

theorem get_eq (same : s.Matches m) (stands : h.StandsFor s id) (name : String) : m.get name h = s.lookup? name id := by
  rw [PlainScopes.get_eq, stands.2.lookup?_eq]
  simp only [same.bound]

theorem containsLocal_eq (same : s.Matches m) (stands : h.StandsFor s id) (name : String) :
    m.containsLocal h name = s.bindsLocally id name := by
  rw [PlainScopes.containsLocal, same.bound, bindsLocally_eq, stands.1]

end Store.Matches

namespace Environments

open ScopeSystem

/-- Each handle to the plain scopes stands for the one to the store at the same place. -/
structure Refines (e : Environments Store ScopeId) (p : Environments PlainScopes PlainHandle) : Prop where
  scopes : e.scopes.Matches p.scopes
  handles : List.Forall₂ (fun id h => PlainHandle.StandsFor e.scopes id h) e.handles p.handles

namespace Refines

variable {e : Environments Store ScopeId} {p : Environments PlainScopes PlainHandle}

theorem empty : Refines ⟨{}, []⟩ ⟨{}, []⟩ where
  scopes := ⟨rfl, fun _ _ => by simp [Store.bound?]⟩
  handles := .nil

/-- One step of both: the same answer, and again the same scopes and handles. -/
def Steps (r : Answer × Environments Store ScopeId) (r' : Answer × Environments PlainScopes PlainHandle) : Prop :=
  r.1 = r'.1 ∧ r.2.Refines r'.2

/-- What is done through handles at the same place is done through handles that stand for each other. -/
theorem through (refines : e.Refines p) (handle : Nat) {use : ScopeId → Answer × Environments Store ScopeId}
    {use' : PlainHandle → Answer × Environments PlainScopes PlainHandle}
    (steps : ∀ id h, PlainHandle.StandsFor e.scopes id h → Steps (use id) (use' h)) :
    Steps (through e handle use) (through p handle use') := by
  have length := refines.handles.length_eq
  unfold ScopeSystem.through
  rcases Nat.lt_or_ge handle e.handles.length with inside | outside
  · rw [List.getElem?_eq_getElem inside, List.getElem?_eq_getElem (length ▸ inside)]
    exact steps _ _ (refines.handles.get inside (length ▸ inside))
  · rw [List.getElem?_eq_none outside, List.getElem?_eq_none (length ▸ outside)]
    exact ⟨rfl, refines⟩

theorem openScope (refines : e.Refines p) {outer : Option ScopeId} {outer' : Option PlainHandle}
    (stands : (PlainScopes.enter outer' p.scopes).1.StandsFor (e.scopes.enter outer {}).2 e.scopes.size) :
    Steps (Store.system.openScope outer e) (PlainScopes.system.openScope outer' p) := by
  refine ⟨rfl, refines.scopes.enter outer outer', List.rel_append ?_ (.cons stands .nil)⟩
  exact refines.handles.imp fun id h stands => stands.enter outer

theorem perform (refines : e.Refines p) (op : Operation) :
    Steps (Store.system.perform e op) (PlainScopes.system.perform p op) := by
  cases op with
  | new => exact refines.openScope refines.scopes.standsFor_root
  | enclosed handle =>
    exact refines.through handle fun id h stands => refines.openScope (refines.scopes.standsFor_inside stands)
  | share handle =>
    refine refines.through handle fun id h stands => ⟨rfl, refines.scopes, ?_⟩
    exact List.rel_append refines.handles (.cons stands .nil)
  | set handle name v =>
    refine refines.through handle fun id h stands => ⟨rfl, refines.scopes.bind stands name v, ?_⟩
    exact refines.handles.imp fun id' h' stands' => stands'.bind id name v
  | get handle name =>
    refine refines.through handle fun id h stands => ⟨congrArg Answer.found ?_, refines⟩
    exact (refines.scopes.get_eq stands name).symm
  | containsLocal handle name =>
    refine refines.through handle fun id h stands => ⟨congrArg Answer.bound ?_, refines⟩
    exact (refines.scopes.containsLocal_eq stands name).symm

theorem run (refines : e.Refines p) (ops : List Operation) :
    (Store.system.run e ops).1 = (PlainScopes.system.run p ops).1 ∧
      (Store.system.run e ops).2.Refines (PlainScopes.system.run p ops).2 := by
  induction ops generalizing e p with
  | nil => exact ⟨rfl, refines⟩
  | cons op ops ih =>
    obtain ⟨answer, refines'⟩ := refines.perform op
    obtain ⟨answers, refines''⟩ := ih refines'
    exact ⟨congrArg₂ List.cons answer answers, refines''⟩

end Refines

theorem scopes_set {e : Environments Store ScopeId} {handle : Nat} {own : ScopeId}
    (there : e.handles[handle]? = some own) (name : String) (v : Value) :
    (Store.system.perform e (.set handle name v)).2.scopes = e.scopes.bind own name v := by
  rw [ScopeSystem.perform, ScopeSystem.through, there]
  rfl

end Environments

open Environments

/-- Whatever is done with environments, the store gives the answers of the plain chains of scopes: the same names are
bound, and to values that cannot be told apart. What is set through a handle is what its other handles get, and those
to scopes inside its scope unless a scope between binds the name; of no other scope, and under no other name, is
anything changed. -/
theorem environments_refine_chains (ops : List Operation) :
    let e := Store.system.run ⟨{}, []⟩ ops
    let p := PlainScopes.system.run ⟨{}, []⟩ ops
    List.Forall₂ Answer.Agrees e.1 p.1 ∧
      ∀ (handle : Nat) (own : ScopeId) (name : String) (v : Value), e.2.handles[handle]? = some own →
        let s := e.2.scopes
        let t := (Store.system.perform e.2 (.set handle name v)).2.scopes
        (∀ other, other ≠ own → t.scopes[other]? = s.scopes[other]?) ∧
          (∀ id name', (id, name') ≠ (own, name) → t.bound? id name' = s.bound? id name') ∧
          (∀ id, t.outer? id = s.outer? id) ∧
          ∀ (handle' : Nat) (id : ScopeId), e.2.handles[handle']? = some id →
            (id = own → t.lookup? name id = some v) ∧
              ∃ ids, s.Chain id ids ∧
                (∀ before after, ids = before ++ own :: after →
                  t.lookup? name id =
                    if before.any (s.bindsLocally · name) then s.lookup? name id else some v) ∧
                (own ∉ ids → t.lookup? name id = s.lookup? name id) ∧
                ∀ name', name' ≠ name → t.lookup? name' id = s.lookup? name' id := by
  intro e p
  obtain ⟨answers, refines⟩ := Refines.empty.run ops
  refine ⟨answers ▸ List.forall₂_same.2 fun a _ => a.agrees_self, ?_⟩
  intro handle own name v there s t
  have written : t = s.bind own name v := scopes_set there name v
  have chain {handle' : Nat} {id : ScopeId} (there' : e.2.handles[handle']? = some id) : ∃ ids, s.Chain id ids := by
    obtain ⟨inside, rfl⟩ := List.getElem?_eq_some_iff.1 there'
    have stands := refines.handles.get inside (refines.handles.length_eq ▸ inside)
    exact ⟨_, stands.2⟩
  obtain ⟨_, ownChain⟩ := chain there
  rw [written]
  refine ⟨fun other ne => s.scopes_modify_of_ne own ne, fun id name' ne => ?_, fun id => s.outer?_bind own id name v,
    fun handle' id there' => ?_⟩
  · rw [Store.bound?_bind, if_neg fun same => ne (Prod.ext same.1 same.2.1)]
  · obtain ⟨ids, idChain⟩ := chain there'
    refine ⟨fun same => ?_, ids, idChain, fun before after split => ?_, fun outside => ?_, fun name' ne => ?_⟩
    · obtain ⟨around, rfl⟩ := idChain.exists_eq_cons
      subst same
      have innermost : s.Chain id ([] ++ id :: around) := idChain
      exact innermost.lookup?_bind idChain.lt_size
    · subst split
      exact idChain.lookup?_bind ownChain.lt_size
    · exact idChain.lookup?_bind_of_not_mem outside name
    · exact idChain.lookup?_bind_of_ne ne

theorem environments_refine_chains_recursive :
    let f : Value := .function ⟨⟨0, [], .mk [] .origin, .origin⟩, 0⟩
    let ops : List Operation :=
      [.new, .set 0 "f" f, .enclosed 0, .share 0, .set 1 "g" f, .get 1 "f", .containsLocal 1 "f"]
    let e := Store.system.run ⟨{}, []⟩ ops
    let p := PlainScopes.system.run ⟨{}, []⟩ ops
    let t := (Store.system.perform e.2 (.set 2 "x" f)).2.scopes
    e.2.handles[2]? = some 0 ∧ e.2.handles[0]? = some 0 ∧ List.Forall₂ Answer.Agrees e.1 p.1 ∧
      t.lookup? "x" 0 = some f ∧ ∀ other, other ≠ 0 → t.scopes[other]? = e.2.scopes.scopes[other]? := by
  intro f ops e p t
  obtain ⟨answers, written⟩ := environments_refine_chains ops
  have shared : e.2.handles[2]? = some 0 := rfl
  have first : e.2.handles[0]? = some 0 := rfl
  obtain ⟨others, _, _, seen⟩ := written 2 0 "x" f shared
  exact ⟨shared, first, answers, (seen 0 0 first).1 rfl, others⟩

end Monkey
