import Monkey.Proofs.Policies
import Monkey.Proofs.Runs

namespace Monkey

namespace Value

/-- The identity of an object. Values that are told apart by what they are have none. -/
def identity? : Value → Option Identity
  | .str id _ | .ret id _ | .error id _ | .array id _ | .hash id _ => some id
  | _ => none

/-- The values directly inside. -/
def children : Value → List Value
  | .ret _ v => [v]
  | .array _ vs => vs
  | .hash _ t => t.toList.flatMap fun p => [p.1, p.2]
  | _ => []

theorem mem_children_hash {id : Identity} {t : HashTable Value} {u : Value} :
    u ∈ (hash id t).children ↔ ∃ p ∈ t.entries, u = p.1 ∨ u = p.2 := by
  simp [children, HashTable.toList]

/-- The first value is the second one, or it is somewhere inside. -/
inductive Part : Value → Value → Prop
  | self (v : Value) : Part v v
  | under {u child v : Value} : child ∈ v.children → Part u child → Part u v

end Value

/-- The program of every source. Sources that are not loaded may have any. -/
structure Library where
  program : SourceId → Program
  numbered : ∀ source : SourceId, (program source).Numbered

namespace Library

def Contains (l : Library) (source : SourceId) (n : SyntaxNode) : Prop := (l.program source).Contains n

/-- The function is a literal of the program of its source. -/
def HasLiteral (l : Library) (f : Function) : Prop :=
  l.Contains f.source (.expression (.function f.parameters f.body f.place))

/-- The node is taken from the program of the source, or its statements are. -/
def Supplies (l : Library) (source : SourceId) : Node → Prop
  | .program p => ∀ st ∈ p.statements, l.Contains source (.statement st)
  | .block b => ∀ st ∈ b.statements, l.Contains source (.statement st)
  | .statement st => l.Contains source (.statement st)
  | .expression e => l.Contains source (.expression e)

end Library

namespace Evaluator

/-- The value is bound in a scope. -/
def State.Shows (s : State) (v : Value) : Prop :=
  ∃ (id : ScopeId) (name : String), s.store.bound? id name = some v

/-- The value is handed to the goal. -/
def Goal.Shows : Goal → Value → Prop
  | .table t _ _, v => ∃ p ∈ t.entries, v = p.1 ∨ v = p.2
  | .call callee arguments, v => v = callee ∨ v ∈ arguments
  | .expression .., _ | .expressions .., _ | .statement .., _ | .statements .., _ => False

/-- The value is what the goal is reached with, or one of them. -/
def Goal.ResultShows : (goal : Goal) → goal.Result → Value → Prop
  | .expression .., u, v | .call .., u, v => v = u
  | .expressions .., us, v => v ∈ us
  | .table .., t, v => ∃ p ∈ t.entries, v = p.1 ∨ v = p.2
  | .statement .., u, v | .statements .., u, v => v ∈ u

/-- The value is about at this moment. -/
def Shows : CallTree.Moment Goal.Result State Signal → Value → Prop
  | .called goal s, v => s.Shows v ∨ goal.Shows v
  | .ended goal (.ok a) s, v => s.Shows v ∨ goal.ResultShows a v
  | .ended _ (.error signal) s, v => s.Shows v ∨ v = signal.toValue

/-- A run with these objects. It begins with an empty root scope; then nodes of the library are evaluated one after
another, in any scope. In between, objects may be made from outside and taken apart, scopes opened, values bound and the
printer changed. The run has no state from where an evaluation is broken off. -/
inductive Run (l : Library) : (objects : Value → Prop) → Option State → Prop
  | root (printer : Printer) : Run l (fun _ => False) (some { store := (Store.enter {} none {}).2, printer })
  | evaluated {objects : Value → Prop} {s : State} {release : Release} {node : Node} {site : Site}
      {moments : List (CallTree.Moment Goal.Result State Signal)}
      {finish : Option (Except Signal (node.goal site).Result × State)} :
      Run l objects (some s) → l.Supplies site.source node →
      CallTree.Course (perform release) moments (Routine.call (node.goal site) s) finish →
      Run l (fun v => objects v ∨ ∃ m ∈ moments, Shows m v) (finish.map (·.2))
  /-- A value that is no object: a simple one, a built-in function, or a closure over a literal of the library. -/
  | written {objects : Value → Prop} {s : State} {v : Value} : Run l objects (some s) → v.identity? = none →
      (∀ c, v = .function c → l.HasLiteral c.function) → Run l (fun u => objects u ∨ u = v) (some s)
  | made {objects : Value → Prop} {s : State} {v : Value} : Run l objects (some s) → v.identity? = some s.objects →
      (∀ u ∈ v.children, objects u) →
      Run l (fun u => objects u ∨ u = v) (some { s with objects := s.objects + 1 })
  | taken {objects : Value → Prop} {s : Option State} {u v : Value} : Run l objects s → objects v → u ∈ v.children →
      Run l (fun x => objects x ∨ x = u) s
  | opened {objects : Value → Prop} {s : State} {outer : Option ScopeId} {bindings : Std.TreeMap String Value} :
      Run l objects (some s) → (∀ (name : String) (v : Value), bindings[name]? = some v → objects v) →
      Run l objects (some { s with store := (s.store.enter outer bindings).2 })
  | bound {objects : Value → Prop} {s : State} {id : ScopeId} {name : String} {v : Value} :
      Run l objects (some s) → objects v → Run l objects (some { s with store := s.store.bind id name v })
  | printer {objects : Value → Prop} {s : State} (printer : Printer) :
      Run l objects (some s) → Run l objects (some { s with printer })

end Evaluator

/-- What is known of the objects of a run: for every identity that has been given out, the object. -/
structure Registry where
  object : Identity → Option Value

namespace Registry

/-- A registry grows by new objects and keeps the old ones. -/
instance : Preorder Registry where
  le R R' := ∀ id v, R.object id = some v → R'.object id = some v
  le_refl _ _ _ known := known
  le_trans _ _ _ first second id v known := second id v (first id v known)

/-- The value is the object with its identity, or a closure over a literal of the library. -/
structure Registered (l : Library) (R : Registry) (v : Value) : Prop where
  object (id : Identity) : v.identity? = some id → R.object id = some v
  literal (c : Closure) : v = .function c → l.HasLiteral c.function

/-- The value and all its parts are registered. -/
def Knows (l : Library) (R : Registry) (v : Value) : Prop := ∀ u, u.Part v → Registered l R u

/-- No object has the identity or a later one. -/
def Free (R : Registry) (n : Identity) : Prop := ∀ id v, R.object id = some v → id < n

/-- The registry with one more object. -/
def add (R : Registry) (n : Identity) (v : Value) : Registry := ⟨fun id => if id = n then some v else R.object id⟩

variable {l : Library} {R R' : Registry} {n : Identity} {u v : Value}

theorem knows_iff : Knows l R v ↔ Registered l R v ∧ ∀ u ∈ v.children, Knows l R u := by
  constructor
  · intro known
    exact ⟨known v (.self v), fun u mem x part => known x (.under mem part)⟩
  · rintro ⟨own, below⟩ x part
    cases part with
    | self => exact own
    | under mem part => exact below _ mem x part

theorem Registered.mono (h : Registered l R v) (le : R ≤ R') : Registered l R' v :=
  ⟨fun id own => le id v (h.object id own), h.literal⟩

theorem Knows.mono (h : Knows l R v) (le : R ≤ R') : Knows l R' v := fun u part => (h u part).mono le

theorem Free.mono {m : Identity} (le : n ≤ m) (free : R.Free n) : R.Free m :=
  fun id v known => Nat.lt_of_lt_of_le (free id v known) le

theorem le_add (free : R.Free n) : R ≤ R.add n v := by
  intro id u known
  have lt := free id u known
  exact (if_neg (Nat.ne_of_lt lt)).trans known

theorem free_add (free : R.Free n) : (R.add n v).Free (n + 1) := by
  intro id u known
  unfold add at known
  dsimp only at known
  split at known
  · next same => exact Nat.lt_succ_of_le (Nat.le_of_eq same)
  · exact Nat.lt_succ_of_lt (free id u known)

/-- A value that is no object needs no entry. -/
theorem knows_of_leaf (leaf : v.children = []) (none : v.identity? = none)
    (literal : ∀ c, v = .function c → l.HasLiteral c.function) : Knows l R v := by
  refine knows_iff.2 ⟨⟨fun id own => ?_, literal⟩, fun u mem => ?_⟩
  · rw [none] at own
    cases own
  · rw [leaf] at mem
    cases mem

/-- An object that is made of known values is registered under a new identity. -/
theorem made (free : R.Free n) (own : v.identity? = some n) (below : ∀ u ∈ v.children, Knows l R u) :
    Evaluator.Made Free R n fun R' => Knows l R' v := by
  refine ⟨R.add n v, le_add free, free_add free, knows_iff.2 ⟨⟨fun id own' => ?_, ?_⟩, fun u mem => ?_⟩⟩
  · rw [own] at own'
    cases own'
    exact if_pos rfl
  · rintro c rfl
    cases own
  · exact (below u mem).mono (le_add free)

end Registry

namespace Library

variable {l : Library} {source : SourceId} {n m : SyntaxNode}

theorem contains_child (mem : m ∈ n.children) (h : l.Contains source n) : l.Contains source m := by
  have below {n top : SyntaxNode} (within : n.Within top) (mem : m ∈ n.children) : m.Within top := by
    induction within with
    | self => exact .under mem (.self m)
    | under child _ ih => exact .under child ih
  obtain ⟨st, top, within⟩ := h
  exact ⟨st, top, below within mem⟩

end Library

open Registry

namespace Evaluator

/-- The policy under which a registry is kept. -/
def registering (l : Library) : Policy Registry where
  Admits := Knows l
  AdmitsTable R t := ∀ p ∈ t.entries, Knows l R p.1 ∧ Knows l R p.2
  AdmitsSignal R signal := Knows l R signal.toValue
  AdmitsCode := l.Contains
  Free := Registry.Free
  admits_mono le known := known.mono le
  table_mono le known p mem := ⟨(known p mem).1.mono le, (known p mem).2.mono le⟩
  signal_mono le known := Knows.mono known le
  free_mono := Free.mono
  int _ := knows_of_leaf rfl rfl nofun
  bool _ := knows_of_leaf rfl rfl nofun
  null := knows_of_leaf rfl rfl nofun
  builtin _ := knows_of_leaf rfl rfl nofun
  str _ free := made free rfl nofun
  array free known := made free rfl known
  elements known := (knows_iff.1 known).2
  hash free known := made free rfl fun u mem => by
    obtain ⟨p, entry, rfl | rfl⟩ := Value.mem_children_hash.1 mem
    · exact (known p entry).1
    · exact (known p entry).2
  table known p entry :=
    ⟨(knows_iff.1 known).2 p.1 (Value.mem_children_hash.2 ⟨p, entry, .inl rfl⟩),
      (knows_iff.1 known).2 p.2 (Value.mem_children_hash.2 ⟨p, entry, .inr rfl⟩)⟩
  empty _ mem := (Array.not_mem_empty _ mem).elim
  insert table key _ v := HashTable.forall_entries_insert table ⟨key, v⟩
  find table found := (HashTable.of_find? table found).2
  closure scope code := knows_of_leaf rfl rfl fun c same => by cases same; exact code
  body known := Library.contains_child (List.mem_append_right _ (.head _)) ((knows_iff.1 known).1.literal _ rfl)
  child := Library.contains_child
  raised _ free := made free rfl nofun
  errorValue known := known
  returned free known := made free rfl fun u mem => by rwa [List.mem_singleton.1 mem]
  taken known := (knows_iff.1 known).2 _ (.head _)

variable {l : Library} {R R' : Registry} {objects : Value → Prop} {finish : Option State}

/-- All values that are about at a moment where the policy holds are known. -/
theorem knows_of_shows {m : CallTree.Moment Goal.Result State Signal} {v : Value}
    (met : m.Meets (registering l).Starts (registering l).Finishes R) (shows : Shows m v) : Knows l R v := by
  have bound {s : State} (holds : (registering l).Holds R s) : s.Shows v → Knows l R v
    | ⟨id, name, found⟩ => holds.store id name v found
  have entry {t : HashTable Value} (table : (registering l).AdmitsTable R t) :
      (∃ p ∈ t.entries, v = p.1 ∨ v = p.2) → Knows l R v
    | ⟨p, mem, .inl same⟩ => same ▸ (table p mem).1
    | ⟨p, mem, .inr same⟩ => same ▸ (table p mem).2
  cases m with
  | called goal s =>
    obtain ⟨holds, inputs⟩ := met
    rcases shows with shown | handed
    · exact bound holds shown
    · cases goal with
      | table t pairs site => exact entry inputs.1 handed
      | call callee arguments =>
        rcases handed with rfl | mem
        · exact inputs.1
        · exact inputs.2 v mem
      | expression | expressions | statement | statements => exact handed.elim
  | ended goal r s =>
    obtain ⟨holds, ends⟩ := met
    cases r with
    | ok a =>
      rcases shows with shown | yielded
      · exact bound holds shown
      · cases goal with
        | expression | call => exact yielded ▸ ends
        | expressions | statement | statements => exact ends v yielded
        | table => exact entry ends yielded
    | error signal =>
      rcases shows with shown | rfl
      · exact bound holds shown
      · exact ends

theorem inputs_of_supplies {node : Node} {site : Site} (supplied : l.Supplies site.source node) :
    (registering l).Inputs R (node.goal site) := by
  cases node <;> exact supplied

/-- The objects of a run are in a registry, and while it has a state, so are all that are bound in it. -/
theorem Run.exists_registry (run : Run l objects finish) :
    ∃ R : Registry, (∀ v, objects v → Knows l R v) ∧ ∀ s, finish = some s → (registering l).Holds R s := by
  induction run with
  | root printer =>
    refine ⟨⟨fun _ => none⟩, fun _ never => never.elim, ?_⟩
    rintro s ⟨⟩
    exact ⟨Store.Binds.empty.enter fun _ _ found => by simp at found, fun _ _ known => nomatch known⟩
  | @evaluated objects s release node site moments finish _ supplied course ih =>
    obtain ⟨R, known, holds⟩ := ih
    have keeps := Policy.keeps_call (node.goal site) (inputs_of_supplies (R := R) supplied)
    obtain ⟨R', le, each, ends⟩ := keeps.course (holds s rfl) course
    refine ⟨R', ?_, fun t same => ?_⟩
    · rintro v (old | ⟨m, mem, shows⟩)
      · exact (known v old).mono le
      · obtain ⟨R'', before, met⟩ := each m mem
        exact (knows_of_shows met shows).mono before
    · obtain ⟨⟨r, t'⟩, found, rfl⟩ := Option.map_eq_some_iff.1 same
      exact (ends r t' found).1
  | @written objects s v _ none literal ih =>
    obtain ⟨R, known, holds⟩ := ih
    refine ⟨R, ?_, holds⟩
    rintro u (old | rfl)
    · exact known u old
    · exact knows_of_leaf (by cases u <;> first | rfl | cases none) none literal
  | @made objects s v _ own below ih =>
    obtain ⟨R, known, holds⟩ := ih
    have old := holds s rfl
    obtain ⟨R', le, free, new⟩ := Registry.made old.free own fun u mem => known u (below u mem)
    refine ⟨R', ?_, ?_⟩
    · rintro u (there | rfl)
      · exact (known u there).mono le
      · exact new
    · rintro t ⟨⟩
      exact ⟨old.store.mono fun _ known => known.mono le, free⟩
  | @taken objects s u v _ there inside ih =>
    obtain ⟨R, known, holds⟩ := ih
    refine ⟨R, ?_, holds⟩
    rintro x (old | rfl)
    · exact known x old
    · exact (knows_iff.1 (known v there)).2 x inside
  | @opened objects s outer bindings _ there ih =>
    obtain ⟨R, known, holds⟩ := ih
    have old := holds s rfl
    refine ⟨R, known, ?_⟩
    rintro t ⟨⟩
    exact ⟨old.store.enter fun name v found => known v (there name v found), old.free⟩
  | @bound objects s id name v _ there ih =>
    obtain ⟨R, known, holds⟩ := ih
    have old := holds s rfl
    refine ⟨R, known, ?_⟩
    rintro t ⟨⟩
    exact ⟨old.store.bind (known v there), old.free⟩
  | @printer objects s printer _ ih =>
    obtain ⟨R, known, holds⟩ := ih
    have old := holds s rfl
    refine ⟨R, known, ?_⟩
    rintro t ⟨⟩
    exact ⟨old.store, old.free⟩

/-- The value of a node is what its goal is reached with, the signal that ended it, or what is inside of a return. -/
theorem shows_value {node : Node} {site : Site} {r : Except Signal (node.goal site).Result} {t : State} {u : Value}
    (h : node.value r = some u) :
    Shows (.ended (node.goal site) r t) u ∨ ∃ id, Shows (.ended (node.goal site) r t) (.ret id u) := by
  cases r with
  | ok a =>
    cases node with
    | program | statement | block => exact .inl (.inr h)
    | expression => exact .inl (.inr (Option.some.inj h).symm)
  | error signal =>
    cases node with
    | program =>
      cases signal with
      | error id message => exact .inl (.inr (Option.some.inj h).symm)
      | ret id v =>
        cases h
        exact .inr ⟨id, .inr rfl⟩
    | statement | block | expression => exact .inl (.inr (Option.some.inj h).symm)

/-- The value of a node that is evaluated is one of the objects. -/
theorem Run.exists_evalNode {s t : State} {i : Interpreter} {node : Node} {site : Site} {v : Option Value}
    (run : Run l objects (some s)) (supplied : l.Supplies site.source node)
    (h : i.evalNode node site s = some (v, t)) :
    ∃ objects', Run l objects' (some t) ∧ ∀ u, objects u ∨ v = some u → objects' u := by
  obtain ⟨r, returns, rfl⟩ := Interpreter.exists_returns_of_evalNode h
  obtain ⟨moments, course⟩ := returns.exists_course
  have evaluated := run.evaluated supplied (.call course (.done r t))
  have last : CallTree.Moment.ended (node.goal site) r t ∈
      .called (node.goal site) s :: (moments ++ [.ended (node.goal site) r t]) :=
    .tail _ (List.mem_append_right _ (.head _))
  cases value : node.value r with
  | none =>
    refine ⟨_, evaluated, ?_⟩
    rintro x (old | never)
    · exact .inl old
    · cases never
  | some u =>
    rcases shows_value (t := t) value with shows | ⟨id, shows⟩
    · refine ⟨_, evaluated, ?_⟩
      rintro x (old | same)
      · exact .inl old
      · cases same
        exact .inr ⟨_, last, shows⟩
    · refine ⟨_, evaluated.taken (.inr ⟨_, last, shows⟩) (List.mem_singleton_self u), ?_⟩
      rintro x (old | same)
      · exact .inl (.inl old)
      · cases same
        exact .inr rfl

end Evaluator

end Monkey
