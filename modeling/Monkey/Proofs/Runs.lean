import Monkey.Interpreter
import Monkey.Proofs.Ensures

namespace Monkey

open Evaluator CallTree

namespace Evaluator

/-- Reached from the state `s`, the goal comes to the end `r` in the state `t`. -/
def Goal.Ends (release : Release) (goal : Goal) (s : State) (r : Except Signal goal.Result) (t : State) : Prop :=
  Returns (perform release) (perform release goal s) r t

/-- The state in which the body of the closure begins. -/
def State.enter (s : State) (c : Closure) (arguments : List Value) : State :=
  { s with store := (s.store.enter (some c.scope) (bindParameters c.function.parameters arguments)).2 }

/-- The state after the call that ran in the scope has come to this end. -/
def State.leave (s : State) (release : Release) (scope : ScopeId) (outcome : Except Signal Value) : State :=
  { s with store := releaseScope release scope outcome s.store }

/-- The scopes of the closures in the value of a run that has come to this end. -/
def outcomeScopes : Except Signal Value → List ScopeId
  | .ok v | .error (.ret _ v) => v.scopes
  | .error (.error ..) => []

/-- What a call of the function reaches when it runs in the scope. -/
abbrev bodyGoal (f : Function) (scope : ScopeId) : Goal := .statements f.body.statements ⟨f.source, scope⟩

/-- A call reaches the body of the function and makes what it comes to the outcome. -/
theorem enterClosure_eq (release : Release) {c : Closure} {arguments : List Value}
    (count : c.function.parameters.length = arguments.length) (s : State) :
    enterClosure release c arguments s =
      .call (bodyGoal c.function s.store.size) (s.enter c arguments) fun r t =>
        .done (callOutcome r) (t.leave release s.store.size (callOutcome r)) := by
  unfold enterClosure
  dsimp only
  rw [if_pos count]
  rfl

/-- A call comes to what its body makes of it. -/
theorem ends_call_iff {release : Release} {c : Closure} {arguments : List Value} {s u : State}
    {outcome : Except Signal Value} (count : c.function.parameters.length = arguments.length) :
    (Goal.call (.function c) arguments).Ends release s outcome u ↔
      ∃ r t, (bodyGoal c.function s.store.size).Ends release (s.enter c arguments) r t ∧
        outcome = callOutcome r ∧ u = t.leave release s.store.size outcome := by
  change Returns (perform release) (enterClosure release c arguments s) _ _ ↔ _
  rw [enterClosure_eq release count, returns_call_iff]
  constructor
  · rintro ⟨r, t, body, rest⟩
    obtain ⟨rfl, rfl⟩ := returns_done_iff.1 rest
    exact ⟨r, t, body, rfl, rfl⟩
  · rintro ⟨r, t, body, rfl, rfl⟩
    exact ⟨r, t, body, .done _ _⟩

theorem enterClosure_eq_raise (release : Release) {c : Closure} {arguments : List Value}
    (count : ¬ c.function.parameters.length = arguments.length) :
    enterClosure release c arguments = raise (.argumentCount c.function.parameters.length arguments.length) := by
  unfold enterClosure
  dsimp only
  rw [if_neg count]

end Evaluator

/-- The value of a program whose statements, as those of a block, came to this end. -/
def Evaluator.programValue : Except Signal (Option Value) → Option Value
  | .ok v => v
  | .error (.ret _ v) => some v
  | .error (.error id message) => some (.error id message)

/-- A program does what a block with its statements does, and makes its value of the end of that. -/
theorem Evaluator.program_eq (site : Site) (last : Option Value) (ss : List Statement) (s : State) :
    program site last ss s = (block site last ss s).conclude fun r => .ok (programValue r) := by
  induction ss generalizing last s with
  | nil => rfl
  | cons st ss ih =>
    refine congrArg (CallTree.call (Goal.statement st site) s) (funext fun r => funext fun t => ?_)
    cases r with
    | ok v => exact ih v t
    | error signal => cases signal <;> rfl

/-- What is reached when the node is evaluated. -/
def Node.goal (site : Site) : Node → Goal
  | .program p => .statements p.statements site
  | .statement s => .statement s site
  | .block b => .statements b.statements site
  | .expression e => .expression e site

/-- The value of the node whose goal came to this end. Only of a program a return yields its value. -/
def Node.value {site : Site} : (node : Node) → Except Signal (node.goal site).Result → Option Value
  | .program _, r => programValue r
  | .statement _, r | .block _, r => settle r
  | .expression _, r => settle (r.map some)

namespace Interpreter

variable {i : Interpreter} {release : Release} {s t : State}

theorem returns_map_iff {α β : Type} {m : Evaluator α} {f : α → β} {out : Except Signal β} :
    Returns (perform release) ((f <$> m) s) out t ↔ ∃ r, Returns (perform release) (m s) r t ∧ out = r.map f := by
  change Returns (perform release) ((m s).andThen fun a u => .done (.ok (f a)) u) out t ↔ _
  rw [returns_andThen_iff]
  constructor
  · rintro (⟨a, u, first, second⟩ | ⟨e, first, rfl⟩)
    · obtain ⟨rfl, rfl⟩ := returns_done_iff.1 second
      exact ⟨.ok a, first, rfl⟩
    · exact ⟨.error e, first, rfl⟩
  · rintro ⟨r, returns, rfl⟩
    cases r with
    | ok a => exact .inl ⟨a, t, returns, .done _ _⟩
    | error e => exact .inr ⟨e, returns, rfl⟩

theorem returns_goal_iff {goal : Goal} {r : Except Signal goal.Result} :
    Returns (perform release) ((Routine.call goal : Evaluator goal.Result) s) r t ↔
      Returns (perform release) (perform release goal s) r t := by
  rw [Routine.call_apply, returns_call_iff]
  constructor
  · rintro ⟨r', s', first, second⟩
    obtain ⟨rfl, rfl⟩ := returns_done_iff.1 second
    exact first
  · exact fun first => ⟨r, t, first, .done r t⟩

theorem returns_of_map_run {α β : Type} {m : Evaluator α} {f : Except Signal α → β} {b : β}
    (h : ((i.run m s).map fun (r, s) => (f r, s)) = some (b, t)) :
    ∃ r, Returns (perform i.release) (m s) r t ∧ f r = b := by
  obtain ⟨⟨r, u⟩, run, same⟩ := Option.map_eq_some_iff.1 h
  cases same
  exact ⟨r, exists_run_iff_returns.1 ⟨i.budget, run⟩, rfl⟩

theorem exists_map_run_of_returns {α β : Type} {m : Evaluator α} {f : Except Signal α → β} {r : Except Signal α}
    (h : Returns (perform release) (m s) r t) :
    ∃ budget, ((run { budget, release } m s).map fun (r, s) => (f r, s)) = some (f r, t) := by
  obtain ⟨budget, run⟩ := exists_run_iff_returns.2 h
  exact ⟨budget, Option.map_eq_some_iff.2 ⟨(r, t), run, rfl⟩⟩

/-- With each budget a program has the value that is made of the end of its statements as those of a block. -/
theorem evalProgram_eq (i : Interpreter) (p : Program) (site : Site) (s : State) :
    i.evalProgram p site s = (i.run (block site none p.statements) s).map fun (r, t) => (programValue r, t) := by
  rw [evalProgram, Interpreter.run, program_eq, run_conclude, Option.map_map]
  rfl

/-- If the interpreter finds a value for a node, it is that of the outcome of the node's goal. -/
theorem exists_returns_of_evalNode {node : Node} {site : Site} {v : Option Value}
    (h : i.evalNode node site s = some (v, t)) :
    ∃ r, Returns (perform i.release) (perform i.release (node.goal site) s) r t ∧ node.value r = v := by
  cases node with
  | program p =>
    rw [evalNode, evalProgram_eq] at h
    exact returns_of_map_run h
  | statement st =>
    obtain ⟨r, returns, same⟩ := returns_of_map_run h
    exact ⟨r, returns_goal_iff.1 returns, same⟩
  | block b => exact returns_of_map_run h
  | expression e =>
    obtain ⟨out, returns, same⟩ := returns_of_map_run h
    obtain ⟨r, inner, rfl⟩ := returns_map_iff.1 returns
    exact ⟨r, returns_goal_iff.1 inner, same⟩

/-- With a budget that is large enough the interpreter finds the outcome of the node's goal. -/
theorem exists_evalNode_of_returns {node : Node} {site : Site}
    {r : Except Signal (node.goal site).Result}
    (h : Returns (perform release) (perform release (node.goal site) s) r t) :
    ∃ budget, evalNode { budget, release } node site s = some (node.value r, t) := by
  cases node with
  | program p =>
    simp only [evalNode, evalProgram_eq]
    exact exists_map_run_of_returns h
  | statement st => exact exists_map_run_of_returns (returns_goal_iff.2 h)
  | block b => exact exists_map_run_of_returns h
  | expression e =>
    exact exists_map_run_of_returns (returns_map_iff.2 ⟨r, returns_goal_iff.2 h, rfl⟩)

/-- With some budget the interpreter finds exactly the outcome of the node's goal. -/
theorem exists_evalNode_iff {node : Node} {site : Site} {v : Option Value} :
    (∃ budget, evalNode { budget, release } node site s = some (v, t)) ↔
      ∃ r, (node.goal site).Ends release s r t ∧ node.value r = v := by
  constructor
  · rintro ⟨budget, h⟩
    exact exists_returns_of_evalNode h
  · rintro ⟨r, returns, rfl⟩
    exact exists_evalNode_of_returns returns

end Interpreter

end Monkey
