import Monkey.Proofs.PlainEvaluation
import Monkey.Proofs.Runs
import Monkey.Session

namespace Monkey

namespace Evaluator

/-- The states between evaluations in a session. It begins with an empty root scope; then nodes are evaluated
one after another, in any scope and by any interpreter, whether they yield a value or a signal. In between,
scopes may be opened and values bound from outside, if these are plain, and the printer may be changed. -/
inductive State.Reached : State → Prop
  | root (printer : Printer) : Reached { store := (Store.enter {} none {}).2, printer }
  | evaluated {s t : State} {i : Interpreter} {node : Node} {site : Site} {v : Option Value} :
      Reached s → i.evalNode node site s = some (v, t) → Reached t
  | opened {s : State} {outer : Option ScopeId} {bindings : Std.TreeMap String Value} :
      Reached s → PlainBindings bindings → Reached { s with store := (s.store.enter outer bindings).2 }
  | bound {s : State} {id : ScopeId} {name : String} {v : Value} :
      Reached s → v.Plain → Reached { s with store := s.store.bind id name v }
  | printer {s : State} (printer : Printer) : Reached s → Reached { s with printer }

end Evaluator

open Evaluator

theorem Interpreter.plain_of_run {α : Type} {i : Interpreter} {m : Evaluator α} {plain : α → Prop} {s t : State}
    {r : Except Signal α} (keeps : Keeps m plain) (store : s.store.Plain) (run : i.run m s = some (r, t)) :
    t.store.Plain ∧ PlainEnd plain r := by
  have returns := CallTree.exists_run_iff_returns.1 ⟨i.budget, run⟩
  exact returns.ensures (fun goal s pre => keeps_perform i.release goal pre.2 s pre.1) (keeps s store)

/-- The same of a run whose outcome is turned into something else. -/
theorem Interpreter.plain_of_map_run {α β : Type} {i : Interpreter} {m : Evaluator α} {plain : α → Prop}
    {f : Except Signal α → β} {s t : State} {b : β} (keeps : Keeps m plain) (store : s.store.Plain)
    (h : ((i.run m s).map fun (r, s) => (f r, s)) = some (b, t)) :
    t.store.Plain ∧ ∃ r, f r = b ∧ PlainEnd plain r := by
  obtain ⟨⟨r, u⟩, run, same⟩ := Option.map_eq_some_iff.1 h
  cases same
  obtain ⟨store', ends⟩ := plain_of_run keeps store run
  exact ⟨store', r, rfl, ends⟩

theorem Interpreter.plain_of_evalNode {i : Interpreter} {node : Node} {site : Site} {s t : State} {v : Option Value}
    (store : s.store.Plain) (h : i.evalNode node site s = some (v, t)) : t.store.Plain := by
  obtain ⟨r, returns, _⟩ := exists_returns_of_evalNode h
  have inputs : (node.goal site).Plain := by cases node <;> trivial
  have meets (goal : Goal) (s : State) (pre : s.store.Plain ∧ goal.Plain) :=
    keeps_perform i.release goal pre.2 s pre.1
  exact (returns.ensures meets (meets _ s ⟨store, inputs⟩)).1

theorem Evaluator.State.Reached.plain {s : State} (h : s.Reached) : s.store.Plain := by
  induction h with
  | root => exact Store.plain_empty.enter plainBindings_empty
  | evaluated _ run ih => exact Interpreter.plain_of_evalNode ih run
  | opened _ bindings ih => exact ih.enter bindings
  | bound _ plain ih => exact ih.bind plain
  | printer _ _ ih => exact ih

namespace Session

theorem reached_new (target : Printer.Target) : (Session.new target).state.Reached := .root _

theorem reached_evalNode {s : Session} {node : Node} {site : Site} (h : s.state.Reached) :
    (s.evalNode node site).2.state.Reached :=
  after_evalNode (P := fun s => s.state.Reached) h fun _ _ run => .evaluated h run

/-- A source that is evaluated in a session, or refused by it, leaves a state of the session. -/
theorem reached_evalSource {s : Session} {source : String} (h : s.state.Reached) :
    (s.evalSource source).2.state.Reached :=
  after_evalSource (P := fun s => s.state.Reached) h fun _ => reached_evalNode (s := s.load.2) h

end Session

theorem plain_of_programValue {r : Except Signal (Option Value)} (h : PlainEnd (fun v => ∀ w ∈ v, w.Plain) r) :
    ∀ w ∈ programValue r, w.Plain ∨ w.isError := by
  intro w mem
  unfold programValue at mem
  split at mem
  · exact .inl (h w mem)
  · cases mem
    exact .inl h
  · cases mem
    exact .inr rfl

/-- In a session no signal gets into data. All scopes bind plain values only, before a program, at every call that its
evaluation makes, be it as a program or as a block, and after each of them, also if it never ends. Every call gets plain
arguments; an expression, a call or a block yields a plain value, an error, or the return of a plain value; and the
program itself yields a plain value, an error or nothing. -/
theorem plain_throughout {s : State} (reached : s.Reached) (i : Interpreter) (p : Program) (site : Site) :
    s.store.Plain ∧
      (∀ goal t, CallTree.Visits (perform i.release) (program site none p.statements s) goal t ∨
          CallTree.Visits (perform i.release) (statements p.statements site s) goal t →
        t.store.Plain ∧ goal.Plain ∧
          ∀ r u, CallTree.Returns (perform i.release) (perform i.release goal t) r u →
            u.store.Plain ∧ PlainEnd goal.PlainResult r) ∧
      ∀ v t, i.evalProgram p site s = some (v, t) → t.store.Plain ∧ ∀ w ∈ v, w.Plain ∨ w.isError := by
  have store := reached.plain
  have meets (goal : Goal) (t : State) (pre : t.store.Plain ∧ goal.Plain) :=
    keeps_perform i.release goal pre.2 t pre.1
  have keeps : Keeps (block site none p.statements) fun v => ∀ w ∈ v, w.Plain :=
    keeps_perform i.release (.statements p.statements site) trivial
  refine ⟨store, fun goal t visits => ?_, fun v t run => ?_⟩
  · have pre : t.store.Plain ∧ goal.Plain := by
      rcases visits with inProgram | inBlock
      · rw [program_eq, CallTree.visits_conclude_iff] at inProgram
        exact inProgram.ensures meets (keeps s store)
      · exact inBlock.ensures meets (keeps_statements p.statements site s store)
    exact ⟨pre.1, pre.2, fun r u returns => returns.ensures meets (meets goal t pre)⟩
  · rw [Interpreter.evalProgram_eq] at run
    obtain ⟨store', r, rfl, ends⟩ := Interpreter.plain_of_map_run keeps store run
    exact ⟨store', plain_of_programValue ends⟩

theorem plain_throughout_closure :
    let p : Program := (parse "let f = fn(x) \x7b return [x]; \x7d; return f(1)[0];").program
    let s : State := { store := (Store.enter {} none {}).2, printer := { target := .silent } }
    let i : Interpreter := { budget := 100 }
    s.Reached ∧
      (∀ goal t, CallTree.Visits (perform i.release) (program ⟨0, 0⟩ none p.statements s) goal t →
        t.store.Plain ∧ goal.Plain) ∧
      ∃ t, i.evalProgram p ⟨0, 0⟩ s = some (some (.int 1), t) ∧ t.store.Plain := by
  have value : ((({ budget := 100 } : Interpreter).evalProgram
      (parse "let f = fn(x) \x7b return [x]; \x7d; return f(1)[0];").program ⟨0, 0⟩
      { store := (Store.enter {} none {}).2, printer := { target := .silent } }).any fun p =>
        p.1.any (Value.int 1).identical) = true := by
    decide +kernel
  obtain ⟨⟨_, t⟩, run, some⟩ := (Option.any_eq_true _ _).1 value
  obtain ⟨v, rfl, one⟩ := (Option.any_eq_true _ _).1 some
  obtain rfl := Value.identical_int_iff.1 one
  intro p s i
  have reached : s.Reached := .root _
  obtain ⟨_, calls, ends⟩ := plain_throughout reached i p ⟨0, 0⟩
  refine ⟨reached, fun goal t visits => ?_, t, run, (ends _ t run).1⟩
  obtain ⟨store, plain, _⟩ := calls goal t (.inl visits)
  exact ⟨store, plain⟩

end Monkey
