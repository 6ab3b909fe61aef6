import Monkey.Proofs.InStep
import Monkey.Proofs.Runs
import Monkey.Proofs.ScopeEvaluation
import Monkey.Store.Renamed

namespace Monkey

open Evaluator

namespace Renaming

structure CarriesSite (ρ : Renaming) (site site' : Site) : Prop where
  source : site.source = site'.source
  scope : ρ.CarriesScope site.scope site'.scope

/-- The goals are the same but for the scope that they are reached in and the values handed to them. -/
inductive CarriesGoal (ρ : Renaming) (n : Nat) : Goal → Goal → Prop
  | expression {site site' : Site} (e : Expr) :
      ρ.CarriesSite site site' → CarriesGoal ρ n (.expression e site) (.expression e site')
  | expressions {site site' : Site} (es : List Expr) :
      ρ.CarriesSite site site' → CarriesGoal ρ n (.expressions es site) (.expressions es site')
  | table {site site' : Site} {t u : HashTable Value} (pairs : List (Expr × Expr)) :
      ρ.CarriesSite site site' → ρ.CarriesTable n t u → CarriesGoal ρ n (.table t pairs site) (.table u pairs site')
  | statement {site site' : Site} (st : Statement) :
      ρ.CarriesSite site site' → CarriesGoal ρ n (.statement st site) (.statement st site')
  | statements {site site' : Site} (ss : List Statement) :
      ρ.CarriesSite site site' → CarriesGoal ρ n (.statements ss site) (.statements ss site')
  | call {callee callee' : Value} {arguments arguments' : List Value} :
      ρ.Carries n callee callee' → List.Forall₂ (ρ.Carries n) arguments arguments' →
      CarriesGoal ρ n (.call callee arguments) (.call callee' arguments')

/-- What goals of the same kind are reached with. -/
def CarriesResult (ρ : Renaming) (n : Nat) : (goal goal' : Goal) → goal.Result → goal'.Result → Prop
  | .expression .., .expression .., v, w | .call .., .call .., v, w => ρ.Carries n v w
  | .expressions .., .expressions .., vs, ws => List.Forall₂ (ρ.Carries n) vs ws
  | .table .., .table .., t, u => ρ.CarriesTable n t u
  | .statement .., .statement .., v, w | .statements .., .statements .., v, w => Option.Rel (ρ.Carries n) v w
  | _, _, _, _ => False

inductive CarriesSignal (ρ : Renaming) (n : Nat) : Signal → Signal → Prop
  | error {i j : Identity} (message : String) :
      ρ.CarriesObject n i j → CarriesSignal ρ n (.error i message) (.error j message)
  | ret {i j : Identity} {v w : Value} :
      ρ.CarriesObject n i j → ρ.Carries n v w → CarriesSignal ρ n (.ret i v) (.ret j w)

/-- The states have printed the same, have made as many objects since they were the same, and their stores are the same
up to the renaming. -/
structure CarriesState (ρ : Renaming) (s t : State) : Prop where
  printer : s.printer = t.printer
  objects : ∃ k, s.objects = ρ.leftObjects + k ∧ t.objects = ρ.rightObjects + k
  store : ρ.CarriesStore s.objects s.store t.store

/-- After at least `n` objects both have come to ends that are the same up to the renaming. -/
def CarriesEnd {α β : Type} (ρ : Renaming) (n : Nat) (value : Nat → α → β → Prop) :
    Except Signal α → State → Except Signal β → State → Prop :=
  CallTree.EndAlike (fun a t b u => n ≤ t.objects ∧ ρ.CarriesState t u ∧ value t.objects a b)
    fun x t y u => n ≤ t.objects ∧ ρ.CarriesState t u ∧ ρ.CarriesSignal t.objects x y

end Renaming

namespace Evaluator

/-- From any two states that are the same up to the renaming, with at least `n` objects, both evaluations call goals
that are, and end in ways that are, with values as `value` says, if all goals do. -/
def Alike {α β : Type} (ρ : Renaming) (n : Nat) (m : Evaluator α) (m' : Evaluator β)
    (value : Nat → α → β → Prop) : Prop :=
  ∀ s s' : State, n ≤ s.objects → ρ.CarriesState s s' →
    (m s).InStep (fun goal t goal' t' => ρ.CarriesState t t' ∧ ρ.CarriesGoal t.objects goal goal')
      (fun goal t goal' t' r u r' u' =>
        ρ.CarriesEnd t.objects (fun k => ρ.CarriesResult k goal goal') r u r' u' ∧
          goal.Leaves t r u ∧ goal'.Leaves t' r' u')
      (m' s') (ρ.CarriesEnd n value)

section Rules

variable {α β γ δ : Type} {ρ : Renaming} {n m : Nat} {value : Nat → α → β → Prop}

theorem carriesEnd_mono {r : Except Signal α} {t : State} {r' : Except Signal β} {t' : State}
    (h : ρ.CarriesEnd m value r t r' t') (le : n ≤ m) : ρ.CarriesEnd n value r t r' t' := by
  cases r with
  | ok a => cases r' with
    | ok b => exact ⟨Nat.le_trans le h.1, h.2⟩
    | error => exact h
  | error x => cases r' with
    | ok => exact h
    | error y => exact ⟨Nat.le_trans le h.1, h.2⟩

theorem carriesState_of_carriesEnd {r : Except Signal α} {t : State} {r' : Except Signal β} {t' : State}
    (h : ρ.CarriesEnd n value r t r' t') : ρ.CarriesState t t' := by
  cases r with
  | ok a => cases r' with
    | ok b => exact h.2.1
    | error => exact h.elim
  | error x => cases r' with
    | ok => exact h.elim
    | error y => exact h.2.1

theorem alike_pure {a : α} {b : β} (h : ∀ k, n ≤ k → value k a b) : Alike ρ n (pure a) (pure b) value :=
  fun _ _ le state => ⟨le, state, h _ le⟩

theorem alike_stop {x y : Signal} (h : ∀ k, n ≤ k → ρ.CarriesSignal k x y) :
    Alike ρ n (Routine.stop x) (Routine.stop y) value :=
  fun _ _ le state => ⟨le, state, h _ le⟩

theorem alike_bind {mid : Nat → γ → δ → Prop} {m : Evaluator γ} {m' : Evaluator δ} {f : γ → Evaluator α}
    {f' : δ → Evaluator β} (first : Alike ρ n m m' mid)
    (rest : ∀ k a b, n ≤ k → mid k a b → Alike ρ k (f a) (f' b) value) : Alike ρ n (m >>= f) (m' >>= f') value := by
  intro s s' le state
  refine CallTree.InStep.andThen (first s s' le state) fun a t b t' met => ?_
  obtain ⟨more, state', related⟩ := met
  have later := rest t.objects a b more related t t' (Nat.le_refl _) state'
  exact later.mono (fun _ _ _ _ h => h) (fun _ _ _ _ _ _ _ _ h => h) fun _ _ _ _ ends => carriesEnd_mono ends more

theorem alike_call {goal goal' : Goal} (h : ∀ k, n ≤ k → ρ.CarriesGoal k goal goal') :
    Alike ρ n (Routine.call goal) (Routine.call goal') fun k => ρ.CarriesResult k goal goal' :=
  fun _ _ le state => ⟨⟨state, h _ le⟩, fun _ _ _ _ ⟨ends, _⟩ => carriesEnd_mono ends le⟩

theorem alike_get {f f' : State → Evaluator α} {value : Nat → α → α → Prop}
    (h : ∀ s s' : State, n ≤ s.objects → ρ.CarriesState s s' → Alike ρ s.objects (f s) (f' s') value) :
    Alike ρ n (Routine.get >>= f) (Routine.get >>= f') value := by
  intro s s' le state
  have later := h s s' le state s s' (Nat.le_refl _) state
  exact later.mono (fun _ _ _ _ h => h) (fun _ _ _ _ _ _ _ _ h => h) fun _ _ _ _ ends => carriesEnd_mono ends le

theorem alike_modifyStore {f f' : Store → Store}
    (h : ∀ k s s', n ≤ k → ρ.CarriesStore k s s' → ρ.CarriesStore k (f s) (f' s')) :
    Alike ρ n (modifyStore f) (modifyStore f') fun _ _ _ => True :=
  fun _ _ le state => ⟨le, ⟨state.printer, state.objects, h _ _ _ le state.store⟩, trivial⟩

theorem alike_fresh : Alike ρ n fresh fresh fun k i j => ρ.CarriesObject k i j := by
  intro s s' le state
  obtain ⟨k, left, right⟩ := state.objects
  have more : s.objects ≤ s.objects + 1 := Nat.le_succ _
  refine ⟨Nat.le_trans le more, ⟨state.printer, ⟨k + 1, ?_, ?_⟩, state.store.mono more⟩, Nat.lt_succ_self _, ?_⟩
  · exact congrArg (· + 1) left
  · exact congrArg (· + 1) right
  · rw [left, right]
    exact .fresh k

theorem alike_raise (e : RuntimeError) : Alike ρ n (raise e) (raise e) value :=
  alike_bind alike_fresh fun _ _ _ _ fresh => alike_stop fun _ le => .error _ (fresh.mono le)

theorem alike_ofResult {r : Except RuntimeError α} {r' : Except RuntimeError β} {R : α → β → Prop}
    (h : ResultsRelated R r r') (stays : ∀ k a b, n ≤ k → R a b → value k a b) :
    Alike ρ n (ofResult r) (ofResult r') value := by
  cases h with
  | ok related => exact alike_pure fun k le => stays k _ _ le related
  | error e => exact alike_raise e

end Rules

section Productions

variable {ρ : Renaming} {n : Nat} {site site' : Site} {v w v' w' : Value}

theorem alike_expression (e : Expr) (sites : ρ.CarriesSite site site') :
    Alike ρ n (expression e site) (expression e site') fun k v w => ρ.Carries k v w :=
  alike_call fun _ _ => .expression e sites

theorem alike_expressions (es : List Expr) (sites : ρ.CarriesSite site site') :
    Alike ρ n (expressions es site) (expressions es site') fun k vs ws => List.Forall₂ (ρ.Carries k) vs ws :=
  alike_call fun _ _ => .expressions es sites

theorem alike_table {t u : HashTable Value} (pairs : List (Expr × Expr)) (sites : ρ.CarriesSite site site')
    (tables : ρ.CarriesTable n t u) :
    Alike ρ n (table t pairs site) (table u pairs site') fun k t u => ρ.CarriesTable k t u :=
  alike_call fun _ le => .table pairs sites (tables.mono le)

theorem alike_statement (st : Statement) (sites : ρ.CarriesSite site site') :
    Alike ρ n (statement st site) (statement st site') fun k v w => Option.Rel (ρ.Carries k) v w :=
  alike_call fun _ _ => .statement st sites

theorem alike_statements (ss : List Statement) (sites : ρ.CarriesSite site site') :
    Alike ρ n (statements ss site) (statements ss site') fun k v w => Option.Rel (ρ.Carries k) v w :=
  alike_call fun _ _ => .statements ss sites

theorem alike_block {last last' : Option Value} (ss : List Statement) (sites : ρ.CarriesSite site site')
    (before : Option.Rel (ρ.Carries n) last last') :
    Alike ρ n (block site last ss) (block site' last' ss) fun k v w => Option.Rel (ρ.Carries k) v w := by
  induction ss generalizing n last last' with
  | nil =>
    refine alike_pure fun k le => ?_
    cases before with
    | none => exact .none
    | some carried => exact .some (carried.mono le)
  | cons st ss ih => exact alike_bind (alike_statement st sites) fun _ _ _ _ values => ih values

theorem alike_name (id : String) (sites : ρ.CarriesSite site site') :
    Alike ρ n (name id site) (name id site') fun k v w => ρ.Carries k v w := by
  refine alike_get fun s s' _ state => ?_
  have means := state.store.lookup? sites.scope id
  generalize s.store.lookup? id site.scope = found, s'.store.lookup? id site'.scope = found' at means ⊢
  cases means with
  | some carried => exact alike_pure fun _ le => carried.mono le
  | none =>
    dsimp only
    split
    · exact alike_pure fun _ _ => .builtin _
    · exact alike_raise _

theorem alike_hashKey (key : ρ.Carries n v w) :
    Alike ρ n (hashKey v) (hashKey w) fun _ h h' => h = h' ∧ v.hashKey?.isSome := by
  unfold hashKey
  rw [key.hashKey?_eq, key.kind_eq]
  cases w.hashKey? with
  | some h => exact alike_pure fun _ _ => ⟨rfl, rfl⟩
  | none => exact alike_raise _

theorem alike_index (base : ρ.Carries n v w) (key : ρ.Carries n v' w') :
    Alike ρ n (index v v') (index w w') fun k v w => ρ.Carries k v w := by
  cases base with
  | array _ each => cases key with
    | int i =>
      refine alike_pure fun k le => Renaming.Carries.mono ?_ le
      split
      · exact .null
      · exact getD_related (getElem?_related each _) .null
    | _ => exact alike_raise _
  | @hash i j t u _ slots entries =>
    refine alike_bind (alike_hashKey key) fun k place place' le ⟨same, _⟩ => alike_pure fun k' le' => ?_
    subst same
    refine Renaming.Carries.mono ?_ (Nat.le_trans le le')
    have entry := Renaming.CarriesTable.find? ⟨slots, entries⟩ place
    generalize t.find? place = found, u.find? place = found' at entry ⊢
    cases entry with
    | none => exact .null
    | some related =>
      obtain ⟨_, _, value⟩ := related
      exact value
  | _ => exact alike_raise _

theorem alike_branch (b : Option Block) (sites : ρ.CarriesSite site site') :
    Alike ρ n (branch b site) (branch b site') fun k v w => ρ.Carries k v w := by
  cases b with
  | some b =>
    refine alike_bind (alike_statements b.statements sites) fun k v w _ values => alike_pure fun k' le => ?_
    exact (getD_related values .null).mono le
  | none => exact alike_pure fun _ _ => .null

/-- The arguments of two calls are bound to the same names. -/
theorem bindParameters_related (parameters : List Identifier) {arguments arguments' : List Value}
    (each : List.Forall₂ (ρ.Carries n) arguments arguments') (name : String) :
    Option.Rel (ρ.Carries n) (bindParameters parameters arguments)[name]?
      (bindParameters parameters arguments')[name]? := by
  let add (bindings : Std.TreeMap String Value) (pair : Identifier × Value) := bindings.insert pair.1.name pair.2
  have folded (bindings bindings' : Std.TreeMap String Value)
      (before : ∀ name : String, Option.Rel (ρ.Carries n) bindings[name]? bindings'[name]?) :
      Option.Rel (ρ.Carries n) ((parameters.zip arguments).foldl add bindings)[name]?
        ((parameters.zip arguments').foldl add bindings')[name]? := by
    induction each generalizing parameters bindings bindings' with
    | nil =>
      rw [List.zip_nil_right]
      exact before name
    | cons first _ ih => cases parameters with
      | nil => exact before name
      | cons p parameters =>
        refine ih parameters _ _ fun name' => ?_
        rw [Std.TreeMap.getElem?_insert, Std.TreeMap.getElem?_insert]
        split
        · exact .some first
        · exact before name'
  rw [bindParameters_eq, bindParameters_eq]
  refine folded {} {} fun name' => ?_
  rw [Std.TreeMap.getElem?_emptyc]
  exact .none

theorem carriesEnd_callOutcome {r r' : Except Signal (Option Value)} {t t' : State}
    (h : ρ.CarriesEnd n (fun k v w => Option.Rel (ρ.Carries k) v w) r t r' t') :
    ρ.CarriesEnd n (fun k v w => ρ.Carries k v w) (callOutcome r) t (callOutcome r') t' := by
  cases r with
  | ok v => cases r' with
    | ok w => exact ⟨h.1, h.2.1, getD_related h.2.2 .null⟩
    | error => exact h.elim
  | error x => cases r' with
    | ok => exact h.elim
    | error y =>
      obtain ⟨le, state, signals⟩ := h
      cases signals with
      | error message object => exact ⟨le, state, .error message object⟩
      | ret _ value => exact ⟨le, state, value⟩

/-- At the end of a call both scopes are cleared or neither is. -/
theorem carriesEnd_leave (release : Release) {k : Nat} {outcome outcome' : Except Signal Value} {t t' : State}
    (ends : ρ.CarriesEnd n (fun k v w => ρ.Carries k v w) outcome t outcome' t')
    (within : EndWithin (fun k v => v.Within k) t.store.size outcome)
    (within' : EndWithin (fun k v => v.Within k) t'.store.size outcome') (sound : t.store.Sound)
    (sound' : t'.store.Sound) :
    ρ.CarriesEnd n (fun k v w => ρ.Carries k v w) outcome (t.leave release (ρ.left + k) outcome) outcome'
      (t'.leave release (ρ.right + k) outcome') := by
  have scope : ρ.CarriesScope (ρ.left + k) (ρ.right + k) := .fresh k
  cases outcome with
  | ok v => cases outcome' with
    | ok w =>
      obtain ⟨le, state, carried⟩ := ends
      refine ⟨le, ⟨state.printer, state.objects, ?_⟩, carried⟩
      cases release with
      | never => exact state.store
      | unreached =>
        have captured := state.store.captured k
        have reached := state.store.reaches_eq sound sound' within within' carried scope
        unfold Store.isCaptured at captured
        unfold State.leave releaseScope
        dsimp only
        rw [captured, reached]
        split
        · exact state.store
        · exact state.store.clear scope
    | error => exact ends.elim
  | error x => cases outcome' with
    | ok => exact ends.elim
    | error y =>
      obtain ⟨le, state, signals⟩ := ends
      refine ⟨le, ⟨state.printer, state.objects, ?_⟩, signals⟩
      cases release with
      | never => exact state.store
      | unreached => exact state.store.clear scope

/-- Calls of the same function run in scopes that are carried, both new, and end alike. -/
theorem alike_enterClosure (release : Release) (f : Function) {a b : ScopeId} {arguments arguments' : List Value}
    (captured : ρ.CarriesScope a b) (each : List.Forall₂ (ρ.Carries n) arguments arguments') :
    Alike ρ n (enterClosure release ⟨f, a⟩ arguments) (enterClosure release ⟨f, b⟩ arguments') fun k v w =>
      ρ.Carries k v w := by
  by_cases count : f.parameters.length = arguments.length
  · intro s s' le state
    have count' : f.parameters.length = arguments'.length := count.trans each.length_eq
    have each' := each.imp fun _ _ carried => carried.mono le
    obtain ⟨k, left, right⟩ := state.store.opened
    rw [enterClosure_eq release count, enterClosure_eq release count', left, right]
    refine ⟨⟨⟨state.printer, state.objects, ?_⟩, .statements _ ⟨rfl, .fresh k⟩⟩, fun r t r' t' met => ?_⟩
    · exact state.store.enter (.some captured) (bindParameters_related f.parameters each')
    · obtain ⟨ends, ⟨_, sound, within⟩, _, sound', within'⟩ := met
      have outcome := carriesEnd_mono (carriesEnd_callOutcome ends) le
      exact carriesEnd_leave release outcome (endWithin_callOutcome within) (endWithin_callOutcome within') sound sound'
  · have count' : ¬ f.parameters.length = arguments'.length := fun same => count (same.trans each.length_eq.symm)
    rw [enterClosure_eq_raise release count, enterClosure_eq_raise release count', each.length_eq]
    exact alike_raise _

theorem alike_enterBuiltin (b : Builtin) {arguments arguments' : List Value}
    (each : List.Forall₂ (ρ.Carries n) arguments arguments') :
    Alike ρ n (enterBuiltin b arguments) (enterBuiltin b arguments') fun k v w => ρ.Carries k v w := by
  have printed : Alike ρ n (Routine.modify fun s : State => { s with printer := b.print arguments s.printer })
      (Routine.modify fun s : State => { s with printer := b.print arguments' s.printer }) fun _ _ _ => True := by
    intro s s' le state
    have same : b.print arguments s.printer = b.print arguments' s'.printer := by
      rw [Renaming.print_eq b each, state.printer]
    exact ⟨le, ⟨same, state.objects, state.store⟩, trivial⟩
  refine alike_bind printed fun k _ _ le _ => alike_bind alike_fresh fun k' i j le' fresh => ?_
  have each' := each.imp fun _ _ carried => carried.mono (Nat.le_trans le le')
  have result : Alike ρ k' (ofResult (b.result i arguments)) (ofResult (b.result j arguments')) fun k v w =>
      ρ.Carries k v w :=
    alike_ofResult (Renaming.carries_builtin b fresh each') fun _ _ _ le carried => carried.mono le
  refine alike_bind result fun k'' v w _ carried => ?_
  have value : ∀ l, k'' ≤ l → ρ.Carries l v w := fun _ le => carried.mono le
  cases carried with
  | error message object => exact alike_stop fun _ le => .error message (object.mono le)
  | _ => exact alike_pure value

theorem alike_produceExpression (release : Release) (e : Expr) (sites : ρ.CarriesSite site site') :
    Alike ρ n (perform release (.expression e site)) (perform release (.expression e site')) fun k v w =>
      ρ.Carries k v w := by
  cases e with
  | name id => exact alike_name id.name sites
  | int k _ => exact alike_pure fun _ _ => .int k
  | str text _ =>
    exact alike_bind alike_fresh fun _ _ _ _ fresh => alike_pure fun _ le => .str text (fresh.mono le)
  | bool b _ => exact alike_pure fun _ _ => .bool b
  | unary op e _ =>
    refine alike_bind (alike_expression e sites) fun k v w _ carried => ?_
    exact alike_ofResult (Renaming.carries_unary op carried) fun _ _ _ le carried => carried.mono le
  | binary op l r _ =>
    refine alike_bind (alike_expression l sites) fun k v w _ left => ?_
    refine alike_bind (alike_expression r sites) fun k' v' w' le right => ?_
    refine alike_bind alike_fresh fun k'' i j le' fresh => ?_
    have left := left.mono (Nat.le_trans le le')
    have right := right.mono le'
    exact alike_ofResult (Renaming.carries_binary op fresh left right) fun _ _ _ le carried => carried.mono le
  | cond c consequence alternative _ =>
    refine alike_bind (alike_expression c sites) fun k v w _ carried => ?_
    rw [carried.isTruthy_eq]
    exact alike_branch _ sites
  | function parameters body span =>
    refine alike_bind (alike_modifyStore fun _ _ _ _ stores => stores.capture sites.scope) fun k _ _ _ _ => ?_
    rw [sites.source]
    exact alike_pure fun _ _ => .function _ sites.scope
  | call f arguments _ =>
    refine alike_bind (alike_expression f sites) fun k callee callee' _ callees => ?_
    refine alike_bind (alike_expressions arguments sites) fun k' vs ws le each => ?_
    refine alike_call fun k'' le' => .call (callees.mono (Nat.le_trans le le')) ?_
    exact each.imp fun _ _ carried => carried.mono le'
  | array es _ =>
    refine alike_bind (alike_expressions es sites) fun k vs ws _ each => ?_
    refine alike_bind alike_fresh fun k' i j le fresh => alike_pure fun k'' le' => ?_
    exact .array (fresh.mono le') (each.imp fun _ _ carried => carried.mono (Nat.le_trans le le'))
  | index b i _ =>
    refine alike_bind (alike_expression b sites) fun k v w _ base => ?_
    refine alike_bind (alike_expression i sites) fun k' v' w' le key => ?_
    exact alike_index (base.mono le) key
  | hash pairs _ =>
    refine alike_bind (alike_table pairs sites Renaming.carriesTable_empty) fun k t u _ tables => ?_
    refine alike_bind alike_fresh fun k' i j le fresh => alike_pure fun k'' le' => ?_
    have tables := tables.mono (Nat.le_trans le le')
    exact .hash (fresh.mono le') tables.slots tables.entries

/-- What is done for goals that are the same up to a renaming is the same up to the renaming. -/
theorem alike_perform (release : Release) {goal goal' : Goal} (goals : ρ.CarriesGoal n goal goal') :
    Alike ρ n (perform release goal) (perform release goal') fun k => ρ.CarriesResult k goal goal' := by
  cases goals with
  | expression e sites => exact alike_produceExpression release e sites
  | expressions es sites => cases es with
    | nil => exact alike_pure fun _ _ => .nil
    | cons e es =>
      refine alike_bind (alike_expression e sites) fun k v w _ first => ?_
      refine alike_bind (alike_expressions es sites) fun k' vs ws le rest => alike_pure fun k'' le' => ?_
      exact .cons (first.mono (Nat.le_trans le le')) (rest.imp fun _ _ carried => carried.mono le')
  | @table site site' t u pairs sites tables => cases pairs with
    | nil => exact alike_pure fun _ le => tables.mono le
    | cons p pairs =>
      refine alike_bind (alike_expression p.1 sites) fun k v w le key => ?_
      refine alike_bind (alike_hashKey key) fun k' place place' le' ⟨same, hashable⟩ => ?_
      refine alike_bind (alike_expression p.2 sites) fun k'' v' w' le'' value => ?_
      subst same
      have tables := tables.mono (Nat.le_trans le (Nat.le_trans le' le''))
      exact alike_table pairs sites (tables.insert place hashable (key.mono (Nat.le_trans le' le'')) value)
  | statement st sites => cases st with
    | bind id e _ =>
      refine alike_bind (alike_expression e sites) fun k v w _ value => ?_
      refine alike_bind (alike_modifyStore fun k' _ _ le stores => ?_) fun _ _ _ _ _ => alike_pure fun _ _ => .none
      exact stores.bind sites.scope id.name (value.mono le)
    | ret value _ => cases value with
      | none =>
        exact alike_bind alike_fresh fun _ _ _ _ fresh => alike_stop fun _ le => .ret (fresh.mono le) .null
      | some e =>
        refine alike_bind (alike_expression e sites) fun k v w _ value => ?_
        refine alike_bind alike_fresh fun _ _ _ le fresh => alike_stop fun _ le' => ?_
        exact .ret (fresh.mono le') (value.mono (Nat.le_trans le le'))
    | expr e =>
      refine alike_bind (alike_expression e sites) fun k v w _ value => alike_pure fun _ le => ?_
      exact .some (value.mono le)
  | statements ss sites => exact alike_block ss sites .none
  | call callee each => cases callee with
    | function f captured => exact alike_enterClosure release f captured each
    | builtin b => exact alike_enterBuiltin b each
    | _ => exact alike_raise _

end Productions

end Evaluator

end Monkey
