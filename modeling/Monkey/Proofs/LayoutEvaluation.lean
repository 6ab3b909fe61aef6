import Monkey.Proofs.InStep
import Monkey.Proofs.Runs
import Monkey.Store.Bare

namespace Monkey

open CallTree

namespace Evaluator

/-- The second state is the first with a bare store. -/
structure State.LaidBare (s t : State) : Prop where
  store : s.store.LaidBare t.store
  printer : t.printer = s.printer
  objects : t.objects = s.objects

def Signal.bare : Signal → Signal
  | .error id message => .error id message
  | .ret id v => .ret id v.bare

def Goal.bare : Goal → Goal
  | .expression e site => .expression e.bare site
  | .expressions es site => .expressions (es.map Expr.bare) site
  | .table t pairs site => .table t.bare (pairs.map barePair) site
  | .statement s site => .statement s.bare site
  | .statements ss site => .statements (ss.map Statement.bare) site
  | .call callee arguments => .call callee.bare (arguments.map Value.bare)

/-- Of goals of the same kind, the second result is the first made bare. -/
def BareResult : (goal goal' : Goal) → goal.Result → goal'.Result → Prop
  | .expression .., .expression .., v, w | .call .., .call .., v, w => w = v.bare
  | .expressions .., .expressions .., vs, ws => ws = vs.map Value.bare
  | .table .., .table .., t, u => u = t.bare
  | .statement .., .statement .., v, w | .statements .., .statements .., v, w => w = v.map Value.bare
  | _, _, _, _ => False

/-- Both have come to values, which are related, or the second to the bare signal of the first. -/
def BareEnd {α β : Type} (value : α → β → Prop) : Except Signal α → State → Except Signal β → State → Prop :=
  EndAlike (fun a t b t' => t.LaidBare t' ∧ value a b) fun x t y t' => t.LaidBare t' ∧ y = x.bare

/-- From a state and the state laid bare, the second evaluation calls the bare goals of the first, and ends as it does,
if all bare goals do. -/
def Mirrors {α β : Type} (m : Evaluator α) (m' : Evaluator β) (value : α → β → Prop) : Prop :=
  ∀ s s' : State, s.LaidBare s' →
    (m s).InStep (fun goal t goal' t' => t.LaidBare t' ∧ goal' = goal.bare)
      (fun goal _ goal' _ => BareEnd (BareResult goal goal')) (m' s') (BareEnd value)

section Rules

variable {α β γ δ : Type} {value : α → β → Prop}

theorem mirrors_pure {a : α} {b : β} (h : value a b) : Mirrors (pure a) (pure b) value :=
  fun _ _ states => ⟨states, h⟩

theorem mirrors_stop (x : Signal) : Mirrors (Routine.stop x) (Routine.stop x.bare) value :=
  fun _ _ states => ⟨states, rfl⟩

theorem mirrors_bind {mid : γ → δ → Prop} {m : Evaluator γ} {m' : Evaluator δ} {f : γ → Evaluator α}
    {f' : δ → Evaluator β} (first : Mirrors m m' mid) (rest : ∀ a b, mid a b → Mirrors (f a) (f' b) value) :
    Mirrors (m >>= f) (m' >>= f') value :=
  fun s s' states => InStep.andThen (first s s' states) fun a t b t' met => rest a b met.2 t t' met.1

theorem mirrors_call (goal : Goal) :
    Mirrors (Routine.call goal) (Routine.call goal.bare) (BareResult goal goal.bare) :=
  fun _ _ states => ⟨⟨states, rfl⟩, fun _ _ _ _ ends => ends⟩

theorem mirrors_get {f : State → Evaluator α} {f' : State → Evaluator β}
    (h : ∀ s s' : State, s.LaidBare s' → Mirrors (f s) (f' s') value) :
    Mirrors (Routine.get >>= f) (Routine.get >>= f') value :=
  fun s s' states => h s s' states s s' states

theorem mirrors_modifyStore {f f' : Store → Store} (h : ∀ s s' : Store, s.LaidBare s' → (f s).LaidBare (f' s')) :
    Mirrors (modifyStore f) (modifyStore f') fun _ _ => True :=
  fun _ _ states => ⟨⟨h _ _ states.store, states.printer, states.objects⟩, trivial⟩

theorem mirrors_fresh : Mirrors fresh fresh (· = ·) :=
  fun _ _ states => ⟨⟨states.store, states.printer, congrArg (· + 1) states.objects⟩, states.objects.symm⟩

theorem mirrors_raise (e : RuntimeError) : Mirrors (raise e) (raise e) value :=
  mirrors_bind mirrors_fresh fun id _ ids => ids ▸ mirrors_stop (.error id e.message)

theorem mirrors_ofResult (r : Except RuntimeError Value) :
    Mirrors (ofResult r) (ofResult (r.map Value.bare)) fun v w => w = v.bare := by
  cases r with
  | ok v => exact mirrors_pure rfl
  | error e => exact mirrors_raise e

end Rules

section Productions

variable (site : Site)

theorem mirrors_expression (e : Expr) : Mirrors (expression e site) (expression e.bare site) fun v w => w = v.bare :=
  mirrors_call (.expression e site)

theorem mirrors_expressions (es : List Expr) :
    Mirrors (expressions es site) (expressions (es.map Expr.bare) site) fun vs ws => ws = vs.map Value.bare :=
  mirrors_call (.expressions es site)

theorem mirrors_table (t : HashTable Value) (pairs : List (Expr × Expr)) :
    Mirrors (table t pairs site) (table t.bare (pairs.map barePair) site) fun t u => u = t.bare :=
  mirrors_call (.table t pairs site)

theorem mirrors_statement (s : Statement) :
    Mirrors (statement s site) (statement s.bare site) fun v w => w = v.map Value.bare :=
  mirrors_call (.statement s site)

theorem mirrors_statements (ss : List Statement) :
    Mirrors (statements ss site) (statements (ss.map Statement.bare) site) fun v w => w = v.map Value.bare :=
  mirrors_call (.statements ss site)

theorem mirrors_block (last : Option Value) (ss : List Statement) :
    Mirrors (block site last ss) (block site (last.map Value.bare) (ss.map Statement.bare)) fun v w =>
      w = v.map Value.bare := by
  induction ss generalizing last with
  | nil => exact mirrors_pure rfl
  | cons st ss ih => exact mirrors_bind (mirrors_statement site st) fun v w same => same ▸ ih v

theorem mirrors_name (id : String) : Mirrors (name id site) (name id site) fun v w => w = v.bare := by
  refine mirrors_get fun s s' states => ?_
  rw [states.store.lookup?_eq]
  cases s.store.lookup? id site.scope with
  | some v => exact mirrors_pure rfl
  | none =>
    dsimp only [Option.map_none]
    split
    · exact mirrors_pure rfl
    · exact mirrors_raise _

theorem mirrors_hashKey (key : Value) : Mirrors (hashKey key) (hashKey key.bare) (· = ·) := by
  unfold hashKey
  rw [key.hashKey?_bare, key.kind_bare]
  cases key.hashKey? with
  | some h => exact mirrors_pure rfl
  | none => exact mirrors_raise _

theorem mirrors_index (base key : Value) :
    Mirrors (index base key) (index base.bare key.bare) fun v w => w = v.bare := by
  cases base with
  | array _ vs => cases key with
    | int i =>
      rw [Value.bare_array]
      refine mirrors_pure ?_
      rw [List.getElem?_map]
      split
      · rfl
      · exact Value.getD_bare _
    | _ => exact mirrors_raise _
  | hash _ t =>
    rw [Value.bare_hash]
    refine mirrors_bind (mirrors_hashKey key) fun h _ same => mirrors_pure ?_
    subst same
    rw [HashTable.find?_bare]
    cases t.find? h <;> rfl
  | _ => exact mirrors_raise _

theorem mirrors_branch (b : Option Block) :
    Mirrors (branch b site) (branch (b.map Block.bare) site) fun v w => w = v.bare := by
  cases b with
  | some b =>
    have inner := mirrors_statements site b.statements
    rw [← Block.statements_bare] at inner
    refine mirrors_bind inner fun v w same => mirrors_pure ?_
    rw [same]
    exact Value.getD_bare v
  | none => exact mirrors_pure rfl

theorem bindParameters_bare (parameters : List Identifier) (arguments : List Value) (name : String) :
    (bindParameters (parameters.map Identifier.bare) (arguments.map Value.bare))[name]? =
      (bindParameters parameters arguments)[name]?.map Value.bare := by
  let add (bindings : Std.TreeMap String Value) (pair : Identifier × Value) := bindings.insert pair.1.name pair.2
  have folded (pairs : List (Identifier × Value)) (bindings bindings' : Std.TreeMap String Value)
      (before : ∀ name : String, bindings'[name]? = bindings[name]?.map Value.bare) :
      ((pairs.map (Prod.map Identifier.bare Value.bare)).foldl add bindings')[name]? =
        (pairs.foldl add bindings)[name]?.map Value.bare := by
    induction pairs generalizing bindings bindings' with
    | nil => exact before name
    | cons pair pairs ih =>
      refine ih _ _ fun name' => ?_
      rw [Std.TreeMap.getElem?_insert, Std.TreeMap.getElem?_insert, before]
      change (if compare pair.1.name name' = .eq then _ else _) = _
      split <;> rfl
  rw [bindParameters_eq, bindParameters_eq, List.zip_map]
  exact folded _ {} {} fun name' => by simp

theorem bareEnd_callOutcome {r r' : Except Signal (Option Value)} {t t' : State}
    (h : BareEnd (fun v w => w = v.map Value.bare) r t r' t') :
    BareEnd (fun v w => w = v.bare) (callOutcome r) t (callOutcome r') t' := by
  cases r with
  | ok v => cases r' with
    | ok w =>
      obtain ⟨states, rfl⟩ := h
      exact ⟨states, Value.getD_bare v⟩
    | error => exact h.elim
  | error x => cases r' with
    | ok => exact h.elim
    | error y =>
      obtain ⟨states, rfl⟩ := h
      cases x with
      | error => exact ⟨states, rfl⟩
      | ret => exact ⟨states, rfl⟩

/-- Of a scope and the scope laid bare both are cleared at the end of a call, or neither. -/
theorem bareEnd_leave (release : Release) (scope : ScopeId) {outcome outcome' : Except Signal Value} {t t' : State}
    (ends : BareEnd (fun v w => w = v.bare) outcome t outcome' t') :
    BareEnd (fun v w => w = v.bare) outcome (t.leave release scope outcome) outcome'
      (t'.leave release scope outcome') := by
  have left (states : t.LaidBare t')
      (store : (releaseScope release scope outcome t.store).LaidBare (releaseScope release scope outcome' t'.store)) :
      (t.leave release scope outcome).LaidBare (t'.leave release scope outcome') :=
    ⟨store, states.printer, states.objects⟩
  cases outcome with
  | ok v => cases outcome' with
    | ok w =>
      obtain ⟨states, rfl⟩ := ends
      refine ⟨left states ?_, rfl⟩
      cases release with
      | never => exact states.store
      | unreached =>
        unfold releaseScope
        dsimp only
        rw [(states.store.getD_scopes scope).captured, states.store.reaches_eq]
        split
        · exact states.store
        · exact states.store.clear scope
    | error => exact ends.elim
  | error x => cases outcome' with
    | ok => exact ends.elim
    | error y =>
      obtain ⟨states, rfl⟩ := ends
      refine ⟨left states ?_, rfl⟩
      cases release with
      | never => exact states.store
      | unreached => exact states.store.clear scope

theorem mirrors_enterClosure (release : Release) (c : Closure) (arguments : List Value) :
    Mirrors (enterClosure release c arguments) (enterClosure release c.bare (arguments.map Value.bare)) fun v w =>
      w = v.bare := by
  have parameters : c.bare.function.parameters.length = c.function.parameters.length := List.length_map _
  have given : (arguments.map Value.bare).length = arguments.length := List.length_map _
  by_cases count : c.function.parameters.length = arguments.length
  · intro s s' states
    have size : s'.store.size = s.store.size := states.store.size
    rw [enterClosure_eq release count, enterClosure_eq release (parameters.trans (count.trans given.symm)), size]
    refine ⟨⟨⟨?_, states.printer, states.objects⟩, ?_⟩, fun r t r' t' ends => ?_⟩
    · exact states.store.enter _ (bindParameters_bare _ _)
    · rw [Goal.bare, ← Block.statements_bare]
      rfl
    · exact bareEnd_leave release _ (bareEnd_callOutcome ends)
  · have count' : ¬ c.bare.function.parameters.length = (arguments.map Value.bare).length := by
      rwa [parameters, given]
    rw [enterClosure_eq_raise release count, enterClosure_eq_raise release count', parameters, given]
    exact mirrors_raise _

theorem mirrors_enterBuiltin (b : Builtin) (arguments : List Value) :
    Mirrors (enterBuiltin b arguments) (enterBuiltin b (arguments.map Value.bare)) fun v w => w = v.bare := by
  have printed : Mirrors (Routine.modify fun s : State => { s with printer := b.print arguments s.printer })
      (Routine.modify fun s : State => { s with printer := b.print (arguments.map Value.bare) s.printer })
      fun _ _ => True := by
    intro s s' states
    refine ⟨⟨states.store, ?_, states.objects⟩, trivial⟩
    dsimp only
    rw [b.print_bare, states.printer]
  refine mirrors_bind printed fun _ _ _ => mirrors_bind mirrors_fresh fun id _ ids => ?_
  subst ids
  rw [b.result_bare]
  refine mirrors_bind (mirrors_ofResult _) fun v w same => ?_
  subst same
  cases v with
  | error id message => exact mirrors_stop (.error id message)
  | _ => exact mirrors_pure rfl

theorem mirrors_performExpression (release : Release) (e : Expr) :
    Mirrors (perform release (.expression e site)) (perform release (.expression e.bare site)) fun v w =>
      w = v.bare := by
  cases e with
  | name id => exact mirrors_name site id.name
  | int n _ => exact mirrors_pure rfl
  | str text _ => exact mirrors_bind mirrors_fresh fun id _ ids => ids ▸ mirrors_pure rfl
  | bool b _ => exact mirrors_pure rfl
  | unary op e _ =>
    refine mirrors_bind (mirrors_expression site e) fun v w same => ?_
    rw [same, op.apply_bare]
    exact mirrors_ofResult _
  | binary op l r _ =>
    refine mirrors_bind (mirrors_expression site l) fun v w left => ?_
    refine mirrors_bind (mirrors_expression site r) fun v' w' right => ?_
    refine mirrors_bind mirrors_fresh fun id _ ids => ?_
    subst ids
    rw [left, right, op.apply_bare]
    exact mirrors_ofResult _
  | cond c consequence otherwise _ =>
    rw [Expr.bare_cond]
    refine mirrors_bind (mirrors_expression site c) fun v w same => ?_
    rw [same, v.isTruthy_bare]
    split
    · exact mirrors_branch site (some consequence)
    · exact mirrors_branch site otherwise
  | function parameters body place =>
    refine mirrors_bind (mirrors_modifyStore fun _ _ stores => stores.capture site.scope) fun _ _ _ => ?_
    refine mirrors_pure ?_
    rw [Value.bare_function]
    rfl
  | call f arguments _ =>
    rw [Expr.bare_call]
    refine mirrors_bind (mirrors_expression site f) fun callee callee' callees => ?_
    refine mirrors_bind (mirrors_expressions site arguments) fun vs ws each => ?_
    rw [callees, each]
    exact mirrors_call (.call callee vs)
  | array es _ =>
    rw [Expr.bare_array]
    refine mirrors_bind (mirrors_expressions site es) fun vs ws each => ?_
    refine mirrors_bind mirrors_fresh fun id _ ids => mirrors_pure ?_
    rw [each, ids, Value.bare_array]
  | index b i _ =>
    refine mirrors_bind (mirrors_expression site b) fun base base' bases => ?_
    refine mirrors_bind (mirrors_expression site i) fun key key' keys => ?_
    rw [bases, keys]
    exact mirrors_index base key
  | hash pairs _ =>
    rw [Expr.bare_hash]
    have empty := mirrors_table site {} pairs
    rw [HashTable.bare_empty] at empty
    refine mirrors_bind empty fun t u tables => ?_
    refine mirrors_bind mirrors_fresh fun id _ ids => mirrors_pure ?_
    rw [tables, ids, Value.bare_hash]

/-- What is done for a bare goal is what is done for the goal, made bare. -/
theorem mirrors_perform (release : Release) (goal : Goal) :
    Mirrors (perform release goal) (perform release goal.bare) (BareResult goal goal.bare) := by
  cases goal with
  | expression e site => exact mirrors_performExpression site release e
  | expressions es site => cases es with
    | nil => exact mirrors_pure rfl
    | cons e es =>
      refine mirrors_bind (mirrors_expression site e) fun v w first => ?_
      refine mirrors_bind (mirrors_expressions site es) fun vs ws rest => mirrors_pure ?_
      change w :: ws = (v :: vs).map Value.bare
      rw [first, rest, List.map_cons]
  | table t pairs site => cases pairs with
    | nil => exact mirrors_pure rfl
    | cons p pairs =>
      refine mirrors_bind (mirrors_expression site p.1) fun key key' keys => ?_
      rw [keys]
      refine mirrors_bind (mirrors_hashKey key) fun h _ same => ?_
      subst same
      refine mirrors_bind (mirrors_expression site p.2) fun v w values => ?_
      rw [values, ← HashTable.bare_insert]
      exact mirrors_table site (t.insert h key v) pairs
  | statement st site => cases st with
    | bind id e _ =>
      refine mirrors_bind (mirrors_expression site e) fun v w same => ?_
      subst same
      refine mirrors_bind (mirrors_modifyStore fun _ _ stores => ?_) fun _ _ _ => mirrors_pure rfl
      exact stores.bind site.scope id.name v
    | ret value _ => cases value with
      | none => exact mirrors_bind mirrors_fresh fun id _ ids => ids ▸ mirrors_stop (.ret id .null)
      | some e =>
        refine mirrors_bind (mirrors_expression site e) fun v w same => ?_
        subst same
        exact mirrors_bind mirrors_fresh fun id _ ids => ids ▸ mirrors_stop (.ret id v)
    | expr e =>
      refine mirrors_bind (mirrors_expression site e) fun v w same => mirrors_pure ?_
      exact congrArg some same
  | statements ss site => exact mirrors_block site none ss
  | call callee arguments => cases callee with
    | function c => exact mirrors_enterClosure release c arguments
    | builtin b => exact mirrors_enterBuiltin b arguments
    | _ => exact mirrors_raise _

end Productions

end Evaluator

namespace Interpreter

open Evaluator

theorem programValue_bare {r r' : Except Signal (Option Value)} {t t' : State}
    (ends : BareEnd (fun v w => w = v.map Value.bare) r t r' t') :
    t.LaidBare t' ∧ programValue r' = (programValue r).map Value.bare := by
  cases r with
  | ok v => cases r' with
    | ok w => exact ends
    | error => exact ends.elim
  | error x => cases r' with
    | ok => exact ends.elim
    | error y =>
      obtain ⟨states, rfl⟩ := ends
      cases x <;> exact ⟨states, rfl⟩

/-- A bare program has the bare value of the program, and neither is found if the budget is too small. -/
theorem evalProgram_bare (i : Interpreter) (p : Program) (site : Site) {s s' : State} (states : s.LaidBare s') :
    Option.Rel (fun x y => x.2.LaidBare y.2 ∧ y.1 = x.1.map Value.bare) (i.evalProgram p site s)
      (i.evalProgram p.bare site s') := by
  have runs := InStep.run_related (fun goal t goal' t' met => met.2 ▸ mirrors_perform i.release goal t t' met.1)
    (mirrors_block site none p.statements s s' states) i.budget
  rw [Option.map_none, ← Program.statements_bare] at runs
  rw [evalProgram_eq, evalProgram_eq]
  unfold Interpreter.run
  generalize CallTree.run _ i.budget (block site none p.statements s) = found at runs ⊢
  generalize CallTree.run _ i.budget (block site none p.bare.statements s') = found' at runs ⊢
  cases runs with
  | some ends => exact .some (programValue_bare ends)
  | none => exact .none

end Interpreter

end Monkey
