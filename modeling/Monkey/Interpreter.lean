import Monkey.Evaluator

namespace Monkey

/-- What can be evaluated by itself. -/
inductive Node where
  | program (p : Program)
  | statement (s : Statement)
  | block (b : Block)
  | expression (e : Expr)

structure Interpreter where
  /-- The most calls that one run makes. -/
  budget : Nat := Nat.pow 2 62
  release : Evaluator.Release := .unreached

namespace Interpreter

open Evaluator

def run {α : Type} (i : Interpreter) (m : Evaluator α) (s : State) : Option (Except Signal α × State) :=
  (m s).run (perform i.release) i.budget

/-- The value of a program, if it has one, and the state after it. -/
def evalProgram (i : Interpreter) (p : Program) (site : Site) (s : State) : Option (Option Value × State) :=
  (i.run (program site none p.statements) s).map fun (r, s) => (settle r, s)

/-- The value of a node, if it has one, and the state after it. Of a statement, block or expression a
signal is the value. -/
def evalNode (i : Interpreter) (node : Node) (site : Site) (s : State) : Option (Option Value × State) :=
  match node with
  | .program p => i.evalProgram p site s
  | .statement st => (i.run (statement st site) s).map fun (r, s) => (settle r, s)
  | .block b => (i.run (block site none b.statements) s).map fun (r, s) => (settle r, s)
  | .expression e => (i.run (some <$> expression e site) s).map fun (r, s) => (settle r, s)

end Interpreter

end Monkey
