import Monkey.Proofs.LexicalEvaluation
import Monkey.Proofs.ScopeWrites

namespace Monkey

open Evaluator

/-- All objects in the value are among the first `n`, and the keys of hashes can be keys. -/
inductive Value.Made (n : Nat) : Value → Prop
  | int (k : Int64) : Made n (.int k)
  | str {i : Identity} (text : String) : i < n → Made n (.str i text)
  | bool (b : Bool) : Made n (.bool b)
  | null : Made n .null
  | ret {i : Identity} {v : Value} : i < n → Made n v → Made n (.ret i v)
  | error {i : Identity} (message : String) : i < n → Made n (.error i message)
  | function (c : Closure) : Made n (.function c)
  | builtin (b : Builtin) : Made n (.builtin b)
  | array {i : Identity} {vs : List Value} : i < n → (∀ v ∈ vs, Made n v) → Made n (.array i vs)
  | hash {i : Identity} {t : HashTable Value} : i < n → (∀ p ∈ t.toList, p.1.hashKey?.isSome) →
      (∀ p ∈ t.toList, Made n p.1) → (∀ p ∈ t.toList, Made n p.2) → Made n (.hash i t)

/-- A key of a hash holds no closure. -/
theorem Value.scopes_eq_nil {v : Value} (hashable : v.hashKey?.isSome) : v.scopes = [] := by
  cases v with
  | int | bool | str => rfl
  | _ => cases hashable

namespace Renaming

variable {ρ : Renaming} {n : Nat} {v w : Value}

theorem Carries.made (h : ρ.Carries n v w) : v.Made n := by
  induction h using Carries.induct with
  | int k => exact .int k
  | str text object => exact .str text object.1
  | bool b => exact .bool b
  | null => exact .null
  | ret object _ inner => exact .ret object.1 inner
  | error message object => exact .error message object.1
  | function => exact .function _
  | builtin b => exact .builtin b
  | array object _ each =>
    refine .array object.1 fun v mem => ?_
    obtain ⟨w, _, _, made⟩ := exists_related each mem
    exact made
  | hash object _ _ each =>
    refine .hash object.1 (fun p mem => ?_) (fun p mem => ?_) fun p mem => ?_
    all_goals obtain ⟨q, _, related⟩ := exists_related each mem
    all_goals obtain ⟨hashable, ⟨_, key⟩, ⟨_, value⟩⟩ := related
    · exact hashable
    · exact key
    · exact value

/-- A value that both runs begin with is carried to itself. -/
theorem carries_self (left : v.Made ρ.leftObjects) (right : v.Made ρ.rightObjects)
    (scopes : ∀ c ∈ v.scopes, ρ.CarriesScope c c) : ρ.Carries ρ.leftObjects v v := by
  have object {i : Identity} (left : i < ρ.leftObjects) (right : i < ρ.rightObjects) :
      ρ.CarriesObject ρ.leftObjects i i := ⟨left, .inl ⟨trivial, left, right, rfl⟩⟩
  induction left with
  | int k => exact .int k
  | str text lt => cases right with
    | str _ lt' => exact .str text (object lt lt')
  | bool b => exact .bool b
  | null => exact .null
  | ret lt _ ih => cases right with
    | ret lt' made => exact .ret (object lt lt') (ih made scopes)
  | error message lt => cases right with
    | error _ lt' => exact .error message (object lt lt')
  | function c => exact .function c.function (scopes c.scope (.head _))
  | builtin b => exact .builtin b
  | array lt _ ih => cases right with
    | array lt' made =>
      refine .array (object lt lt') (List.forall₂_same.2 fun v mem => ih v mem (made v mem) fun c inside => ?_)
      exact scopes c (Value.mem_scopes_array.2 ⟨v, mem, inside⟩)
  | hash lt hashable _ _ ihKey ihValue => cases right with
    | hash lt' _ madeKey madeValue =>
      refine .hash (object lt lt') rfl (List.forall₂_same.2 fun p mem => ?_)
      refine .mk (hashable p mem) (ihKey p mem (madeKey p mem) ?_) (ihValue p mem (madeValue p mem) ?_)
      · rw [Value.scopes_eq_nil (hashable p mem)]
        exact fun _ mem => nomatch mem
      · exact fun c inside => scopes c (Value.mem_scopes_hash.2 ⟨p, Array.mem_def.2 mem, inside⟩)

/-- The renaming that keeps these scopes, and all objects, of states that runs begin in. -/
def keeping (shared : ScopeId → Prop) (s s' : State) : Renaming where
  shared
  left := s.store.size
  right := s'.store.size
  leftObjects := s.objects
  rightObjects := s'.objects

end Renaming

namespace Evaluator

/-- The goal begins with the scope: it is reached in it, or is handed a closure over it. -/
def Goal.Root : Goal → ScopeId → Prop
  | .expression _ site, c | .expressions _ site, c | .statement _ site, c | .statements _ site, c => c = site.scope
  | .table t _ site, c => c = site.scope ∨ ∃ p ∈ t.entries, c ∈ p.2.scopes
  | .call callee arguments, c => ∃ v ∈ callee :: arguments, c ∈ v.scopes

/-- All objects in the values handed to the goal are among the first `n`. -/
def Goal.Made (n : Nat) : Goal → Prop
  | .table t _ _ => ∀ p ∈ t.toList, p.1.hashKey?.isSome ∧ p.1.Made n ∧ p.2.Made n
  | .call callee arguments => ∀ v ∈ callee :: arguments, v.Made n
  | .expression .. | .expressions .. | .statement .. | .statements .. => True

/-- The store has no loose ends, and all objects in bound values have been made. -/
structure State.Sound (s : State) : Prop where
  store : s.store.Sound
  made : ∀ {id : ScopeId} {name : String} {v : Value}, s.store.bound? id name = some v → v.Made s.objects

end Evaluator

namespace Renaming

variable {ρ : Renaming}

theorem carriesGoal_self {goal : Goal} (left : goal.Made ρ.leftObjects) (right : goal.Made ρ.rightObjects)
    (scopes : ∀ c, goal.Root c → ρ.CarriesScope c c) : ρ.CarriesGoal ρ.leftObjects goal goal := by
  cases goal with
  | expression e site => exact .expression e ⟨rfl, scopes _ rfl⟩
  | expressions es site => exact .expressions es ⟨rfl, scopes _ rfl⟩
  | statement st site => exact .statement st ⟨rfl, scopes _ rfl⟩
  | statements ss site => exact .statements ss ⟨rfl, scopes _ rfl⟩
  | table t pairs site =>
    refine .table pairs ⟨rfl, scopes _ (.inl rfl)⟩ ⟨rfl, List.forall₂_same.2 fun p mem => ?_⟩
    obtain ⟨hashable, key, value⟩ := left p mem
    obtain ⟨_, key', value'⟩ := right p mem
    refine .mk hashable (carries_self key key' ?_) (carries_self value value' fun c inside => ?_)
    · rw [Value.scopes_eq_nil hashable]
      exact fun _ mem => nomatch mem
    · exact scopes c (.inr ⟨p, Array.mem_def.2 mem, inside⟩)
  | call callee arguments =>
    have each (v : Value) (mem : v ∈ callee :: arguments) : ρ.Carries ρ.leftObjects v v :=
      carries_self (left v mem) (right v mem) fun c inside => scopes c ⟨v, mem, inside⟩
    exact .call (each callee (.head _)) (List.forall₂_same.2 fun v mem => each v (.tail _ mem))

/-- States are the same up to the renaming that keeps a part of both in which they agree and which no link leaves. -/
theorem carriesState_keeping {shared : ScopeId → Prop} {s s' : State} (sound : s.Sound) (sound' : s'.Sound)
    (printer : s.printer = s'.printer) (inside : ∀ id, shared id → id < s.store.size ∧ id < s'.store.size)
    (closed : ∀ id next, shared id → s.store.Link id next → shared next)
    (agree : ∀ id, shared id → s.store.AgreesAt s'.store id) : (keeping shared s s').CarriesState s s' := by
  have keeps {id : ScopeId} (mem : shared id) : (keeping shared s s').CarriesScope id id :=
    .inl ⟨mem, (inside id mem).1, (inside id mem).2, rfl⟩
  refine ⟨printer, ⟨0, rfl, rfl⟩, ⟨⟨0, rfl, rfl⟩, fun {a b} scope => ?_, fun {a b name} scope => ?_, fun k => ?_⟩⟩
  · rcases scope with ⟨mem, _, _, rfl⟩ | ⟨k, rfl, rfl⟩
    · rw [← (agree a mem).outer]
      cases around : s.store.outer? a with
      | none => exact .none
      | some c => exact .some (keeps (closed a c mem (.inl around)))
    · have left : s.store.outer? ((keeping shared s s').left + k) = none :=
        s.store.outer?_eq_none _ (Nat.le_add_right _ k)
      have right : s'.store.outer? ((keeping shared s s').right + k) = none :=
        s'.store.outer?_eq_none _ (Nat.le_add_right _ k)
      rw [left, right]
      exact .none
  · rcases scope with ⟨mem, _, _, rfl⟩ | ⟨k, rfl, rfl⟩
    · have same := (agree a mem).bound name
      rw [← same]
      cases bound : s.store.bound? a name with
      | none => exact .none
      | some v =>
        refine .some (carries_self (sound.made bound) (sound'.made (same ▸ bound)) fun c mem' => ?_)
        exact keeps (closed a c mem (.inr ⟨name, v, bound, mem'⟩))
    · have left : s.store.bound? ((keeping shared s s').left + k) name = none :=
        s.store.bound?_eq_none _ (Nat.le_add_right _ k) name
      have right : s'.store.bound? ((keeping shared s s').right + k) name = none :=
        s'.store.bound?_eq_none _ (Nat.le_add_right _ k) name
      rw [left, right]
      exact .none
  · have left : s.store.isCaptured (s.store.size + k) = false := s.store.isCaptured_eq_false _ (Nat.le_add_right _ k)
    have right : s'.store.isCaptured (s'.store.size + k) = false :=
      s'.store.isCaptured_eq_false _ (Nat.le_add_right _ k)
    exact left.trans right.symm

end Renaming

section Adequacy

variable {ρ : Renaming} {release : Release} {goal goal' : Goal} {s s' t t' : State}

/-- Goals that may be reached from these states, side by side. -/
structure SideBySide (ρ : Renaming) (goal : Goal) (s : State) (goal' : Goal) (s' : State) : Prop where
  states : ρ.CarriesState s s'
  goals : ρ.CarriesGoal s.objects goal goal'
  left : s.store.Sound ∧ goal.Within s.store.size
  right : s'.store.Sound ∧ goal'.Within s'.store.size

/-- What is known when both have been reached. -/
structure EndSideBySide (ρ : Renaming) (goal : Goal) (s : State) (goal' : Goal) (s' : State)
    (r : Except Signal goal.Result) (t : State) (r' : Except Signal goal'.Result) (t' : State) : Prop where
  ends : ρ.CarriesEnd s.objects (fun k => ρ.CarriesResult k goal goal') r t r' t'
  left : goal.Leaves s r t
  right : goal'.Leaves s' r' t'

theorem SideBySide.inStep (h : SideBySide ρ goal s goal' s') :
    (perform release goal s).InStep (SideBySide ρ) (EndSideBySide ρ) (perform release goal' s')
      (EndSideBySide ρ goal s goal' s') := by
  have alike := alike_perform release h.goals s s' (Nat.le_refl _) h.states
  have left := stays_perform release goal h.left.2 s h.left.1 (Nat.le_refl _)
  have right := stays_perform release goal' h.right.2 s' h.right.1 (Nat.le_refl _)
  refine (alike.ensures left right).mono (fun goal t goal' t' h => ?_) (fun goal t goal' t' r u r' u' h => ?_)
    fun r t r' t' h => ?_
  · obtain ⟨⟨states, goals⟩, left, right⟩ := h
    exact ⟨states, goals, left, right⟩
  · exact ⟨h.ends, h.left, h.right⟩
  · obtain ⟨ends, left, right⟩ := h
    exact ⟨ends, left, right⟩

/-- Where the one goal comes to an end the other does. -/
theorem SideBySide.exists_ends {r : Except Signal goal.Result} (h : SideBySide ρ goal s goal' s')
    (ends : goal.Ends release s r t) :
    ∃ r' t', goal'.Ends release s' r' t' ∧ EndSideBySide ρ goal s goal' s' r t r' t' :=
  CallTree.InStep.exists_returns (fun _ _ _ _ h => h.inStep) h.inStep ends

theorem SideBySide.exists_ends_of_right {r' : Except Signal goal'.Result} (h : SideBySide ρ goal s goal' s')
    (ends : goal'.Ends release s' r' t') :
    ∃ r t, goal.Ends release s r t ∧ EndSideBySide ρ goal s goal' s' r t r' t' :=
  CallTree.InStep.exists_returns (fun _ _ _ _ h => h.inStep.symm) h.inStep.symm ends

end Adequacy

namespace Evaluator.State

variable {release : Release} {s t : State}

/-- Whatever a goal comes to, its values have been made: beside itself the run ends with values that are carried to
themselves. -/
theorem Sound.of_ends {goal : Goal} {r : Except Signal goal.Result} (sound : s.Sound)
    (within : goal.Within s.store.size) (made : goal.Made s.objects) (ends : goal.Ends release s r t) : t.Sound := by
  let ρ := Renaming.keeping (· < s.store.size) s s
  have scope (id : ScopeId) : ρ.CarriesScope id id := by
    by_cases old : id < s.store.size
    · exact .inl ⟨old, old, old, rfl⟩
    · obtain ⟨k, same⟩ := Nat.exists_eq_add_of_le (Nat.not_lt.1 old)
      exact .inr ⟨k, same, same⟩
  have states : ρ.CarriesState s s :=
    Renaming.carriesState_keeping sound sound rfl (fun _ lt => ⟨lt, lt⟩) (fun _ _ _ link => sound.store.link_lt link)
      fun _ _ => ⟨rfl, fun _ => rfl⟩
  have goals : ρ.CarriesGoal s.objects goal goal := Renaming.carriesGoal_self made made fun id _ => scope id
  have besides : SideBySide ρ goal s goal s := ⟨states, goals, ⟨sound.store, within⟩, ⟨sound.store, within⟩⟩
  obtain ⟨r', t', ends', both⟩ := besides.exists_ends ends
  obtain ⟨rfl, rfl⟩ := CallTree.Returns.unique ends ends'
  refine ⟨both.left.2.1, fun {id name v} found => ?_⟩
  have bound : Option.Rel (ρ.Carries t.objects) (t.store.bound? id name) (t.store.bound? id name) :=
    (carriesState_of_carriesEnd both.ends).store.bound (scope id)
  rw [found] at bound
  obtain ⟨w, _, carried⟩ := exists_eq_some bound
  exact carried.made

/-- All scopes and objects in the value are there. -/
def CanHold (s : State) (v : Value) : Prop := v.Within s.store.size ∧ v.Made s.objects

theorem Sound.bind {own : ScopeId} {name : String} {v : Value} (sound : s.Sound) (value : s.CanHold v) :
    Sound { s with store := s.store.bind own name v } := by
  refine ⟨sound.store.bind value.1, fun {id name' w} found => ?_⟩
  change (s.store.bind own name v).bound? id name' = some w at found
  rw [Store.bound?_bind] at found
  split at found
  · cases found
    exact value.2
  · exact sound.made found

theorem Sound.enter {outer : Option ScopeId} {bindings : Std.TreeMap String Value} (sound : s.Sound)
    (around : ∀ id ∈ outer, id < s.store.size)
    (values : ∀ (name : String) (v : Value), bindings[name]? = some v → s.CanHold v) :
    Sound { s with store := (s.store.enter outer bindings).2 } := by
  refine ⟨sound.store.enter around fun name v bound => (values name v bound).1, fun {id name w} found => ?_⟩
  change (s.store.enter outer bindings).2.bound? id name = some w at found
  rw [Store.bound?_enter] at found
  split at found
  · exact (values name w found).2
  · exact sound.made found

theorem sound_new (target : Printer.Target) : (Session.new target).state.Sound := by
  refine ⟨(Session.sound_new target).1, fun {id name v} found => ?_⟩
  change (Store.enter {} none {}).2.bound? id name = some v at found
  rw [Store.bound?_enter] at found
  split at found
  · simp at found
  · simp [Store.bound?] at found

/-- No node that is evaluated leaves a state that is not sound. -/
theorem Sound.evalNode {i : Interpreter} {node : Node} {site : Site} {v : Option Value} (sound : s.Sound)
    (lt : site.scope < s.store.size) (run : i.evalNode node site s = some (v, t)) : t.Sound := by
  obtain ⟨r, returns, _⟩ := Interpreter.exists_returns_of_evalNode run
  have made : (node.goal site).Made s.objects := by cases node <;> trivial
  exact sound.of_ends (Node.within_goal lt) made returns

end Evaluator.State

/-- The state of a session is sound whatever sources it has evaluated. -/
theorem Session.Sound.state_evalSource {s : Session} {source : String} (sound : s.Sound) (state : s.state.Sound) :
    (s.evalSource source).2.state.Sound := by
  refine after_evalSource (P := fun s => s.state.Sound) state fun p => ?_
  exact after_evalNode (P := fun s => s.state.Sound) state fun _ _ run => state.evalNode sound.2 run

end Monkey
