import Monkey.Builtin
import Monkey.Operator
import Monkey.Routine
import Monkey.Store.Reach

namespace Monkey

namespace Evaluator

/-- Where code runs: the source that it stands in and the scope for its names. -/
structure Site where
  source : SourceId
  scope : ScopeId

/-- What ends an evaluation early. -/
inductive Signal where
  | error (id : Identity) (message : String)
  | ret (id : Identity) (value : Value)

def Signal.toValue : Signal → Value
  | .error id message => .error id message
  | .ret id v => .ret id v

structure State where
  store : Store := {}
  printer : Printer
  /-- The number of objects made so far. -/
  objects : Nat := 0
  deriving Inhabited

inductive Goal where
  | expression (e : Expr) (site : Site)
  | expressions (es : List Expr) (site : Site)
  /-- The table with the pairs of a hash literal put into it. -/
  | table (table : HashTable Value) (pairs : List (Expr × Expr)) (site : Site)
  | statement (s : Statement) (site : Site)
  /-- The statements in order, with the value of the last one. -/
  | statements (ss : List Statement) (site : Site)
  | call (callee : Value) (arguments : List Value)

abbrev Goal.Result : Goal → Type
  | .expression _ _ | .call _ _ => Value
  | .expressions _ _ => List Value
  | .table _ _ _ => HashTable Value
  | .statement _ _ | .statements _ _ => Option Value

/-- What happens to the scope of a call that has ended. -/
inductive Release where
  /-- Its bindings are cleared unless the result reaches it. -/
  | unreached
  /-- It is left as it is. -/
  | never
  deriving DecidableEq, Inhabited

end Evaluator

/-- An evaluation, which may be ended by a signal. -/
abbrev Evaluator (α : Type) := Routine Evaluator.Goal.Result Evaluator.State Evaluator.Signal α

namespace Evaluator

/-- An identity for a new object. -/
def fresh : Evaluator Identity := Routine.modifyGet fun s => (s.objects, { s with objects := s.objects + 1 })

def modifyStore (f : Store → Store) : Evaluator Unit := Routine.modify fun s => { s with store := f s.store }

def raise {α : Type} (e : RuntimeError) : Evaluator α := do
  Routine.stop (.error (← fresh) e.message)

def ofResult {α : Type} : Except RuntimeError α → Evaluator α
  | .ok a => pure a
  | .error e => raise e

def expression (e : Expr) (site : Site) : Evaluator Value := Routine.call (Goal.expression e site)

def expressions (es : List Expr) (site : Site) : Evaluator (List Value) :=
  Routine.call (Goal.expressions es site)

def table (t : HashTable Value) (pairs : List (Expr × Expr)) (site : Site) : Evaluator (HashTable Value) :=
  Routine.call (Goal.table t pairs site)

def statement (s : Statement) (site : Site) : Evaluator (Option Value) := Routine.call (Goal.statement s site)

def statements (ss : List Statement) (site : Site) : Evaluator (Option Value) :=
  Routine.call (Goal.statements ss site)

def call (callee : Value) (arguments : List Value) : Evaluator Value := Routine.call (Goal.call callee arguments)

/-- A name means what its scope says, or else the built-in function of that name. -/
def name (name : String) (site : Site) : Evaluator Value := do
  match (← Routine.get).store.lookup? name site.scope with
  | some v => return v
  | none =>
    match Builtin.ofName? name with
    | some b => return .builtin b
    | none => raise (.unknownName name)

def hashKey (key : Value) : Evaluator HashKey :=
  match key.hashKey? with
  | some h => pure h
  | none => raise (.notAKey key.kind)

/-- The element or entry at a key; null if there is none. -/
def index (base key : Value) : Evaluator Value :=
  match base, key with
  | .array _ vs, .int i => pure (if i.toInt < 0 then .null else vs[i.toInt.toNat]?.getD .null)
  | .hash _ t, key => do
    let h ← hashKey key
    return (t.find? h).elim .null (·.2)
  | base, _ => raise (.notIndexable base.kind)

/-- Runs the statements of a block in order; `last` is the value of the statement before them. -/
def block (site : Site) (last : Option Value) : List Statement → Evaluator (Option Value)
  | [] => pure last
  | s :: ss => do block site (← statement s site) ss

/-- Runs the statements of a program in order. A return ends the program with the value inside, an error with itself. -/
def program (site : Site) (last : Option Value) : List Statement → Evaluator (Option Value)
  | [] => pure last
  | s :: ss => do
    match ← (statement s site).attempt with
    | .ok v => program site v ss
    | .error (.ret _ v) => return some v
    | .error (.error id message) => return some (.error id message)

/-- The statements of a block as the value of an expression. -/
def branch (b : Option Block) (site : Site) : Evaluator Value :=
  match b with
  | some b => do return (← statements b.statements site).getD .null
  | none => pure .null

/-- The parameters as names for the arguments. Of equal names the last one counts. -/
def bindParameters (parameters : List Identifier) (arguments : List Value) : Std.TreeMap String Value :=
  (parameters.zip arguments).foldl (fun bindings (p, v) => bindings.insert p.name v) {}

theorem bindParameters_eq (parameters : List Identifier) (arguments : List Value) :
    bindParameters parameters arguments =
      (parameters.zip arguments).foldl (fun bindings pair => bindings.insert pair.1.name pair.2) {} := rfl

theorem mem_of_bindParameters {parameters : List Identifier} {arguments : List Value} {name : String} {v : Value}
    (found : (bindParameters parameters arguments)[name]? = some v) : v ∈ arguments := by
  have folded (pairs : List (Identifier × Value)) (bindings : Std.TreeMap String Value)
      (found : (pairs.foldl (fun bindings pair => bindings.insert pair.1.name pair.2) bindings)[name]? = some v) :
      bindings[name]? = some v ∨ ∃ pair ∈ pairs, pair.2 = v := by
    induction pairs generalizing bindings with
    | nil => exact .inl found
    | cons pair pairs ih =>
      rcases ih _ found with old | ⟨later, mem, same⟩
      · rw [Std.TreeMap.getElem?_insert] at old
        split at old
        · exact .inr ⟨pair, .head _, Option.some.inj old⟩
        · exact .inl old
      · exact .inr ⟨later, .tail _ mem, same⟩
  rw [bindParameters_eq] at found
  rcases folded _ _ found with old | ⟨pair, mem, rfl⟩
  · simp at old
  · exact (List.of_mem_zip mem).2

/-- What a function yields when its body has come to this end. -/
def callOutcome : Except Signal (Option Value) → Except Signal Value
  | .ok v => .ok (v.getD .null)
  | .error (.ret _ v) => .ok v
  | .error (.error id message) => .error (.error id message)

/-- The store after the call that ran in the scope has come to this end. -/
def releaseScope (release : Release) (scope : ScopeId) (outcome : Except Signal Value) (s : Store) : Store :=
  match release, outcome with
  | .never, _ => s
  | .unreached, .ok v => if (s.scopes.getD scope {}).captured && s.reaches v scope then s else s.clear scope
  | .unreached, .error _ => s.clear scope

/-- Runs the body of a closure in a new scope inside the one that it captured. -/
def enterClosure (release : Release) (c : Closure) (arguments : List Value) : Evaluator Value := do
  let f := c.function
  if f.parameters.length = arguments.length then
    let bindings := bindParameters f.parameters arguments
    let scope ← Routine.modifyGet fun s =>
      let (scope, store) := s.store.enter (some c.scope) bindings
      (scope, { s with store })
    let outcome := callOutcome (← (statements f.body.statements ⟨f.source, scope⟩).attempt)
    modifyStore (releaseScope release scope outcome)
    Routine.ofExcept outcome
  else raise (.argumentCount f.parameters.length arguments.length)

/-- Runs a built-in function. If its result is an error value, that error is raised. -/
def enterBuiltin (b : Builtin) (arguments : List Value) : Evaluator Value := do
  Routine.modify fun s => { s with printer := b.print arguments s.printer }
  match ← ofResult (b.result (← fresh) arguments) with
  | .error id message => Routine.stop (.error id message)
  | v => return v

/-- What is done for each goal. Expressions are evaluated from left to right; an error or a return ends all that is
under way up to the call or program that takes it. -/
def perform (release : Release) : (goal : Goal) → Evaluator goal.Result
  | .expression e site =>
    match e with
    | .name id => name id.name site
    | .int n _ => pure (.int n)
    | .str s _ => do return .str (← fresh) s
    | .bool b _ => pure (.bool b)
    | .unary op e _ => do
      let v ← expression e site
      ofResult (op.apply v)
    | .binary op l r _ => do
      let left ← expression l site
      let right ← expression r site
      ofResult (op.apply (← fresh) left right)
    | .cond c consequence alternative _ => do
      let v ← expression c site
      branch (if v.isTruthy then some consequence else alternative) site
    | .function parameters body place => do
      modifyStore (·.capture site.scope)
      return .function ⟨⟨site.source, parameters, body, place⟩, site.scope⟩
    | .call f arguments _ => do
      let callee ← expression f site
      call callee (← expressions arguments site)
    | .array es _ => do
      let vs ← expressions es site
      return .array (← fresh) vs
    | .index b i _ => do
      let base ← expression b site
      index base (← expression i site)
    | .hash pairs _ => do
      let t ← table {} pairs site
      return .hash (← fresh) t
  | .expressions es site =>
    match es with
    | [] => pure []
    | e :: es => do
      let v ← expression e site
      return v :: (← expressions es site)
  | .table t pairs site =>
    match pairs with
    | [] => pure t
    | (k, e) :: pairs => do
      let key ← expression k site
      let h ← hashKey key
      let v ← expression e site
      table (t.insert h key v) pairs site
  | .statement s site =>
    match s with
    | .bind id e _ => do
      let v ← expression e site
      modifyStore (·.bind site.scope id.name v)
      return none
    | .ret none _ => do Routine.stop (.ret (← fresh) .null)
    | .ret (some e) _ => do
      let v ← expression e site
      Routine.stop (.ret (← fresh) v)
    | .expr e => do return some (← expression e site)
  | .statements ss site => block site none ss
  | .call callee arguments =>
    match callee with
    | .function c => enterClosure release c arguments
    | .builtin b => enterBuiltin b arguments
    | v => raise (.notAFunction v.kind)

/-- The value of a statement or block that came to this end. A signal is a value like another. -/
def settle : Except Signal (Option Value) → Option Value
  | .ok v => v
  | .error signal => some signal.toValue

end Evaluator

end Monkey
