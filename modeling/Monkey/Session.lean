import Monkey.Interpreter
import Monkey.Parser

namespace Monkey

/-- What came of a source. -/
inductive Outcome where
  /-- It could not be read, and nothing was evaluated. -/
  | parseErrors (errors : List ParseError)
  /-- It has a value, which may be a runtime error. -/
  | value (v : Value)
  | noValue
  /-- The run was broken off when its budget was used up. -/
  | unfinished

structure Session where
  interpreter : Interpreter := {}
  state : Evaluator.State
  root : ScopeId
  /-- The number of sources loaded so far. -/
  sources : Nat := 0

namespace Session

/-- A session that prints to the target. -/
def new (target : Printer.Target) : Session :=
  let (root, store) := Store.enter {} none {}
  { state := { store, printer := { target } }, root }

/-- The number of a source that is loaded now. -/
def load (s : Session) : SourceId × Session := (s.sources, { s with sources := s.sources + 1 })

/-- Evaluates a node of a loaded source in the scope. -/
def evalNode (s : Session) (node : Node) (site : Evaluator.Site) : Outcome × Session :=
  match s.interpreter.evalNode node site s.state with
  | some (some v, state) => (.value v, { s with state })
  | some (none, state) => (.noValue, { s with state })
  | none => (.unfinished, s)

/-- Evaluates a source in the root scope if it can be read without errors. -/
def evalSource (s : Session) (source : String) : Outcome × Session :=
  let parsed := parse source
  if parsed.errors.isEmpty then
    let (number, s) := s.load
    s.evalNode (.program parsed.program) ⟨number, s.root⟩
  else (.parseErrors parsed.errors, s)

theorem evalSource_of_clean (s : Session) {source : String} (clean : (parse source).errors = []) :
    s.evalSource source = s.load.2.evalNode (.program (parse source).program) ⟨s.load.1, s.load.2.root⟩ := by
  unfold evalSource
  dsimp only
  rw [clean]
  exact if_pos rfl

theorem evalSource_of_errors (s : Session) {source : String} (wrong : (parse source).errors ≠ []) :
    s.evalSource source = (.parseErrors (parse source).errors, s) := by
  unfold evalSource
  exact if_neg (by simpa using wrong)

/-- What holds before a node is evaluated, and of every state that its evaluation ends in, holds after it. -/
theorem after_evalNode {P : Session → Prop} {s : Session} {node : Node} {site : Evaluator.Site} (unfinished : P s)
    (finished : ∀ v state, s.interpreter.evalNode node site s.state = some (v, state) → P { s with state }) :
    P (s.evalNode node site).2 := by
  unfold evalNode
  split
  · next v state run => exact finished (some v) state run
  · next state run => exact finished none state run
  · exact unfinished

/-- What holds of a session, and after each program that may be evaluated in it, holds after a source. -/
theorem after_evalSource {P : Session → Prop} {s : Session} {source : String} (refused : P s)
    (evaluated : ∀ p : Program, P (s.load.2.evalNode (.program p) ⟨s.load.1, s.load.2.root⟩).2) :
    P (s.evalSource source).2 := by
  by_cases clean : (parse source).errors = []
  · rw [evalSource_of_clean s clean]
    exact evaluated _
  · rw [evalSource_of_errors s clean]
    exact refused

/-- The text that was printed and kept. -/
def output (s : Session) : String := s.state.printer.captured

def clearOutput (s : Session) : Session :=
  { s with state := { s.state with printer := s.state.printer.clear } }

/-- The text that the session has printed since the last time, and the session with it taken off. -/
def takePrinted (s : Session) : String × Session :=
  (s.state.printer.written,
    { s with state := { s.state with printer := { s.state.printer with written := "" } } })

end Session

end Monkey
