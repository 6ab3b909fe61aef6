import Monkey.Proofs.Contexts

namespace Monkey

namespace Evaluator

open CallTree

variable {release : Release}

/-- A call comes to the end that its body has come to, but that a return yields its value. -/
theorem ends_call {c : Closure} {arguments : List Value} {s t : State} {r : Except Signal (Option Value)}
    (count : c.function.parameters.length = arguments.length)
    (body : (bodyGoal c.function s.store.size).Ends release (s.enter c arguments) r t) :
    (Goal.call (.function c) arguments).Ends release s (callOutcome r)
      (t.leave release s.store.size (callOutcome r)) :=
  (ends_call_iff count).2 ⟨r, t, body, rfl, rfl⟩

def Signal.IsError : Signal → Prop
  | .error .. => True
  | .ret .. => False

/-- The second state is the first but that some scopes may have been cleared: those of calls that an error broke off. -/
def State.Cleared (s t : State) : Prop := ∃ ids : List ScopeId, t = { s with store := ids.foldl Store.clear s.store }

theorem State.Cleared.refl (s : State) : s.Cleared s := ⟨[], rfl⟩

theorem State.Cleared.trans {s t u : State} (first : s.Cleared t) (second : t.Cleared u) : s.Cleared u := by
  obtain ⟨ids, rfl⟩ := first
  obtain ⟨ids', rfl⟩ := second
  exact ⟨ids ++ ids', by rw [List.foldl_append]⟩

theorem State.cleared_leave (s : State) (release : Release) (scope : ScopeId) {x : Signal} :
    s.Cleared (s.leave release scope (.error x)) := by
  cases release with
  | unreached => exact ⟨[scope], rfl⟩
  | never => exact .refl s

/-- An error that comes up anywhere on the way is let pass. -/
def LetsPass {α : Type} (m : Evaluator α) : Prop := ∀ s, (m s).Strict Signal.IsError State.Cleared

section LetsPass

variable {α β : Type} {m : Evaluator α} {f : α → Evaluator β}

theorem letsPass_bind (first : LetsPass m) (rest : ∀ a, LetsPass (f a)) : LetsPass (m >>= f) :=
  fun s => (first s).andThen rest

theorem letsPass_pure (a : α) : LetsPass (pure a) := fun _ => trivial

theorem letsPass_stop (x : Signal) : LetsPass (Routine.stop x : Evaluator α) := fun _ => trivial

theorem letsPass_fresh : LetsPass fresh := fun _ => trivial

theorem letsPass_modify (f : State → State) : LetsPass (Routine.modify f) := fun _ => trivial

theorem letsPass_call (goal : Goal) : LetsPass (Routine.call goal) :=
  fun _ => ⟨fun _ t _ => ⟨t, rfl, .refl t⟩, fun _ _ => trivial⟩

theorem letsPass_raise (e : RuntimeError) : LetsPass (raise e : Evaluator α) :=
  letsPass_bind letsPass_fresh fun _ => letsPass_stop _

theorem letsPass_ofResult (r : Except RuntimeError α) : LetsPass (ofResult r) := by
  cases r with
  | ok a => exact letsPass_pure a
  | error e => exact letsPass_raise e

theorem letsPass_name (id : String) (site : Site) : LetsPass (name id site) := by
  refine letsPass_bind (fun _ => trivial) fun s => ?_
  split
  · exact letsPass_pure _
  · split
    · exact letsPass_pure _
    · exact letsPass_raise _

theorem letsPass_hashKey (key : Value) : LetsPass (hashKey key) := by
  unfold hashKey
  split
  · exact letsPass_pure _
  · exact letsPass_raise _

theorem letsPass_index (base key : Value) : LetsPass (index base key) := by
  unfold index
  split
  · exact letsPass_pure _
  · exact letsPass_bind (letsPass_hashKey _) fun _ => letsPass_pure _
  · exact letsPass_raise _

theorem letsPass_branch (b : Option Block) (site : Site) : LetsPass (branch b site) := by
  unfold branch
  split
  · exact letsPass_bind (letsPass_call _) fun _ => letsPass_pure _
  · exact letsPass_pure _

/-- A call clears its scope on an error, and that is all. -/
theorem letsPass_enterClosure (c : Closure) (arguments : List Value) : LetsPass (enterClosure release c arguments) := by
  intro s
  by_cases count : c.function.parameters.length = arguments.length
  · rw [enterClosure_eq release count]
    refine ⟨fun x t isError => ?_, fun _ _ => trivial⟩
    cases x with
    | error id message => exact ⟨_, rfl, t.cleared_leave release s.store.size⟩
    | ret => exact isError.elim
  · rw [enterClosure_eq_raise release count]
    exact letsPass_raise _ s

theorem letsPass_enterBuiltin (b : Builtin) (arguments : List Value) : LetsPass (enterBuiltin b arguments) := by
  refine letsPass_bind (letsPass_modify _) fun _ => letsPass_bind letsPass_fresh fun _ => ?_
  refine letsPass_bind (letsPass_ofResult _) fun v => ?_
  split
  · exact letsPass_stop _
  · exact letsPass_pure _

theorem letsPass_block (site : Site) (last : Option Value) (ss : List Statement) : LetsPass (block site last ss) := by
  induction ss generalizing last with
  | nil => exact letsPass_pure last
  | cons st ss ih => exact letsPass_bind (letsPass_call _) ih

theorem letsPass_expression (e : Expr) (site : Site) : LetsPass (perform release (.expression e site)) := by
  cases e with
  | name id => exact letsPass_name id.name site
  | int | bool => exact letsPass_pure _
  | str => exact letsPass_bind letsPass_fresh fun _ => letsPass_pure _
  | unary => exact letsPass_bind (letsPass_call _) fun _ => letsPass_ofResult _
  | binary =>
    refine letsPass_bind (letsPass_call _) fun _ => letsPass_bind (letsPass_call _) fun _ => ?_
    exact letsPass_bind letsPass_fresh fun _ => letsPass_ofResult _
  | cond => exact letsPass_bind (letsPass_call _) fun _ => letsPass_branch _ site
  | function => exact letsPass_bind (letsPass_modify _) fun _ => letsPass_pure _
  | call =>
    exact letsPass_bind (letsPass_call _) fun _ => letsPass_bind (letsPass_call _) fun _ => letsPass_call _
  | array | hash =>
    exact letsPass_bind (letsPass_call _) fun _ => letsPass_bind letsPass_fresh fun _ => letsPass_pure _
  | index => exact letsPass_bind (letsPass_call _) fun _ => letsPass_bind (letsPass_call _) fun _ => letsPass_index _ _

theorem letsPass_perform (goal : Goal) : LetsPass (perform release goal) := by
  cases goal with
  | expression e site => exact letsPass_expression e site
  | expressions es site =>
    cases es with
    | nil => exact letsPass_pure _
    | cons =>
      exact letsPass_bind (letsPass_call _) fun _ => letsPass_bind (letsPass_call _) fun _ => letsPass_pure _
  | table t pairs site =>
    cases pairs with
    | nil => exact letsPass_pure _
    | cons =>
      refine letsPass_bind (letsPass_call _) fun _ => letsPass_bind (letsPass_hashKey _) fun _ => ?_
      exact letsPass_bind (letsPass_call _) fun _ => letsPass_call _
  | statement st site =>
    cases st with
    | bind => exact letsPass_bind (letsPass_call _) fun _ => letsPass_bind (letsPass_modify _) fun _ => letsPass_pure _
    | ret value =>
      cases value with
      | none => exact letsPass_bind letsPass_fresh fun _ => letsPass_stop _
      | some => exact letsPass_bind (letsPass_call _) fun _ => letsPass_bind letsPass_fresh fun _ => letsPass_stop _
    | expr => exact letsPass_bind (letsPass_call _) fun _ => letsPass_pure _
  | statements ss site => exact letsPass_block site none ss
  | call callee arguments =>
    cases callee with
    | function c => exact letsPass_enterClosure c arguments
    | builtin b => exact letsPass_enterBuiltin b arguments
    | _ => exact letsPass_raise _

end LetsPass

/-- The program has this value and ends in this state: a budget that is large enough finds them, and none finds
others. -/
def Yields (release : Release) (p : Program) (site : Site) (s : State) (v : Option Value) (t : State) : Prop :=
  (∃ budget, Interpreter.evalProgram { budget, release } p site s = some (v, t)) ∧
    ∀ budget w u, Interpreter.evalProgram { budget, release } p site s = some (w, u) → w = v ∧ u = t

theorem yields_of_ends {p : Program} {site : Site} {s t : State} {r : Except Signal (Option Value)}
    (h : (Goal.statements p.statements site).Ends release s r t) : Yields release p site s (programValue r) t := by
  refine ⟨?_, fun budget w u run => ?_⟩
  · obtain ⟨budget, run⟩ := Interpreter.exists_map_run_of_returns (f := programValue) h
    exact ⟨budget, (Interpreter.evalProgram_eq ..).trans run⟩
  · rw [Interpreter.evalProgram_eq] at run
    obtain ⟨r', returns, rfl⟩ := Interpreter.returns_of_map_run run
    obtain ⟨rfl, rfl⟩ := returns.unique h
    exact ⟨rfl, rfl⟩

end Evaluator

open Evaluator CallTree

/-- In any context, when a signal ends the part that the run has come to, it ends the whole in the same state, and no
call is made in between. When an error ends the body of a function it ends the call, and of a return the call yields
the value; so does a program, of which an error is the value. Hence an error that comes up anywhere while a program
runs, under any number of calls, is the value of the program, and all that happens after it is that scopes of broken
off calls are cleared. -/
theorem first_signal_wins (release : Release) :
    (∀ goal s part s', Reaches release goal s part s' → ∀ x t, part.Ends release s' (.error x) t →
        (∀ r u, goal.Ends release s r u ↔ r = .error x ∧ u = t) ∧
          ∃ n m frames,
            (advance (perform release goal s) .nil).after (perform release) n =
                advance (perform release part s') frames ∧
              ReturnsIn (perform release) m (perform release part s') (.error x) t ∧
              ReturnsIn (perform release) (n + m) (perform release goal s) (.error x) t) ∧
      (∀ c arguments s t, c.function.parameters.length = arguments.length →
        (∀ id message, (bodyGoal c.function s.store.size).Ends release (s.enter c arguments)
            (.error (.error id message)) t →
          (Goal.call (.function c) arguments).Ends release s (.error (.error id message))
            (t.leave release s.store.size (.error (.error id message)))) ∧
        ∀ id v, (bodyGoal c.function s.store.size).Ends release (s.enter c arguments) (.error (.ret id v)) t →
          (Goal.call (.function c) arguments).Ends release s (.ok v) (t.leave release s.store.size (.ok v))) ∧
      (∀ p site s t,
        (∀ id message, (Goal.statements p.statements site).Ends release s (.error (.error id message)) t →
          Yields release p site s (some (.error id message)) t) ∧
        ∀ id v, (Goal.statements p.statements site).Ends release s (.error (.ret id v)) t →
          Yields release p site s (some v) t) ∧
      ∀ p site s goal u id message t,
        Visits (perform release) (program site none p.statements s) goal u →
        goal.Ends release u (.error (.error id message)) t →
          ∃ w, t.Cleared w ∧ Yields release p site s (some (.error id message)) w := by
  refine ⟨fun goal s part s' reaches x t ends => ?_, fun c arguments s t count => ⟨fun id message body => ?_,
    fun id v body => ?_⟩, fun p site s t => ⟨fun id message ends => ?_, fun id v ends => ?_⟩,
    fun p site s goal u id message t visits raised => ?_⟩
  · obtain ⟨n, comes, stops⟩ := reaches.exists_returnsIn
    obtain ⟨frames, begins⟩ := comes .nil
    obtain ⟨m, part⟩ := ends.exists_returnsIn
    have whole := stops m x t part
    refine ⟨fun r u => ⟨fun other => other.unique whole.returns, ?_⟩, n, m, frames, begins, part, whole⟩
    rintro ⟨rfl, rfl⟩
    exact whole.returns
  · exact ends_call count body
  · exact ends_call count body
  · exact yields_of_ends ends
  · exact yields_of_ends ends
  · have isError : Signal.IsError (.error id message) := trivial
    rw [program_eq, visits_conclude_iff] at visits
    obtain ⟨w, ends, cleared⟩ := visits.stops (fun goal s => letsPass_perform goal s) State.Cleared.trans
      (letsPass_block site none p.statements s) isError raised
    exact ⟨w, cleared, yields_of_ends ends⟩

theorem first_signal_wins_under_call :
    let site : Site := ⟨0, 0⟩
    let e : Expr := .unary .neg (.bool true .origin) .origin
    let f : Function := ⟨0, [], .mk [.expr e] .origin, .origin⟩
    let g : Function := ⟨0, [], .mk [.expr (.array [.cond (.bool true .origin)
      (.mk [.ret (some (.int 7 .origin)) .origin] .origin) none .origin] .origin)] .origin, .origin⟩
    let p : Program :=
      ⟨[.expr (.array [.int 1 .origin, .call (.function [] f.body .origin) [] .origin] .origin)]⟩
    let s : State := { store := (Store.enter {} none {}).2, printer := { target := .silent } }
    let s' : State := { s with store := s.store.capture 0 }
    let x : Signal := .error 0 "unknown operator: -BOOLEAN"
    let t : State := { s'.enter ⟨f, 0⟩ [] with objects := 1 }
    let u := t.leave .unreached 1 (.error x)
    (Goal.call (.function ⟨f, 0⟩) []).Ends .unreached s' (.error x) u ∧
      (Goal.statements p.statements site).Ends .unreached s (.error x) u ∧
      Yields .unreached p site s (some (.error 0 "unknown operator: -BOOLEAN")) u ∧
      (∃ w, t.Cleared w ∧ Yields .unreached p site s (some (.error 0 "unknown operator: -BOOLEAN")) w) ∧
      ∃ w, (Goal.call (.function ⟨g, 0⟩) []).Ends .unreached s (.ok (.int 7)) w := by
  intro site e f g p s s' x t u
  obtain ⟨contexts, calls, programs, anywhere⟩ := first_signal_wins .unreached
  have raised : (Goal.expression e ⟨0, 1⟩).Ends .unreached (s'.enter ⟨f, 0⟩ []) (.error x) t :=
    .call (.done _ _) (.done _ _)
  have inBody : Reaches .unreached (bodyGoal f 1) (s'.enter ⟨f, 0⟩ []) (.expression e ⟨0, 1⟩) (s'.enter ⟨f, 0⟩ []) :=
    .inside (@Awaits.statement _ [] _ _ _ _ none _ (.done _ _)) (.inside .alone .here)
  have body := ((contexts _ _ _ _ inBody x t raised).1 _ _).2 ⟨rfl, rfl⟩
  have call := (calls ⟨f, 0⟩ [] s' t rfl).1 0 _ body
  have before : (Goal.expressions [.int 1 .origin] site).Ends .unreached s (.ok [.int 1]) s :=
    .call (.done _ _) (.call (.done _ _) (.done _ _))
  have callee : (Goal.expression (.function [] f.body .origin) site).Ends .unreached s (.ok (.function ⟨f, 0⟩)) s' :=
    .done _ _
  have arguments : (Goal.expressions [] site).Ends .unreached s' (.ok []) s' := .done _ _
  have inProgram : Reaches .unreached (.statements p.statements site) s (.call (.function ⟨f, 0⟩) []) s' :=
    .inside (@Awaits.statement _ [] _ _ _ _ none _ (.done _ _)) (.inside .alone (.inside (.element before)
      (.inside (.application callee arguments) .here)))
  have whole := ((contexts _ _ _ _ inProgram x u call).1 _ _).2 ⟨rfl, rfl⟩
  have stands : ∃ frames, (advance (program site none p.statements s) .nil).after
      (perform .unreached) 11 = .pending (.expression e ⟨0, 1⟩) (s'.enter ⟨f, 0⟩ []) frames := ⟨_, rfl⟩
  obtain ⟨_, stands⟩ := stands
  have returned : (Goal.statement (.ret (some (.int 7 .origin)) .origin) ⟨0, 1⟩).Ends .unreached (s.enter ⟨g, 0⟩ [])
      (.error (.ret 0 (.int 7))) { s.enter ⟨g, 0⟩ [] with objects := 1 } :=
    .call (.done _ _) (.done _ _)
  have inBranch : Reaches .unreached (bodyGoal g 1) (s.enter ⟨g, 0⟩ [])
      (.statement (.ret (some (.int 7 .origin)) .origin) ⟨0, 1⟩) (s.enter ⟨g, 0⟩ []) := by
    have condition : (Goal.expression (.bool true .origin) ⟨0, 1⟩).Ends .unreached (s.enter ⟨g, 0⟩ [])
        (.ok (.bool true)) (s.enter ⟨g, 0⟩ []) := .done _ _
    exact .inside (@Awaits.statement _ [] _ _ _ _ none _ (.done _ _)) (.inside .alone
      (.inside (@Awaits.element _ [] _ _ _ _ _ [] _ (.done _ _)) (.inside (.branch condition rfl)
        (.inside (@Awaits.statement _ [] _ _ _ _ none _ (.done _ _)) .here))))
  have value := ((contexts _ _ _ _ inBranch _ _ returned).1 _ _).2 ⟨rfl, rfl⟩
  exact ⟨call, whole, (programs p site s u).1 0 _ whole,
    anywhere p site s _ _ 0 _ t (visits_of_pending stands) raised, _, (calls ⟨g, 0⟩ [] s _ rfl).2 0 _ value⟩

end Monkey
