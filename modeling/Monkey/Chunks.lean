import Monkey.Interpreter

namespace Monkey

namespace Value

/-- Errors and returns stop the statements after them. -/
def isSignal : Value → Bool
  | .error .. | .ret .. => true
  | _ => false

/-- The value inside a return; other values are as they are. -/
def unwrapped : Value → Value
  | .ret _ v => v
  | v => v

mutual

/-- No error and no return, and none inside. -/
def SignalFree : Value → Prop
  | .ret .. | .error .. => False
  | .array _ vs => SignalFreeElements vs
  | .hash _ t => SignalFreeTable t
  | _ => True

def SignalFreeElements : List Value → Prop
  | [] => True
  | v :: vs => v.SignalFree ∧ SignalFreeElements vs

def SignalFreeTable : HashTable Value → Prop
  | ⟨⟨ps⟩, _⟩ => SignalFreeEntries ps

def SignalFreeEntries : List (Value × Value) → Prop
  | [] => True
  | (k, v) :: ps => k.SignalFree ∧ v.SignalFree ∧ SignalFreeEntries ps

end

end Value

/-- No scope binds an error or a return, or what has one inside. -/
def Store.SignalFree (s : Store) : Prop :=
  ∀ (id : ScopeId) (name : String) (v : Value), s.bound? id name = some v → v.SignalFree

namespace Interpreter

open Evaluator

/-- Evaluates the statements one at a time, up to the first whose value is a signal. The last value is the result;
`last` is the value before. -/
def evalInTurn (i : Interpreter) (site : Site) (last : Option Value) :
    List Statement → State → Option (Option Value × State)
  | [], s => some (last, s)
  | st :: ss, s =>
    match i.evalNode (.statement st) site s with
    | some (v, t) => if v.any Value.isSignal then some (v, t) else i.evalInTurn site v ss t
    | none => none

/-- Evaluates a program, and then another one unless the first was stopped, which its statements show when they are
evaluated as a block. -/
def evalChunks (i : Interpreter) (first second : Program) (site : Site) (s : State) : Option (Option Value × State) :=
  match i.evalProgram first site s, i.evalNode (.block (.mk first.statements .origin)) site s with
  | some (v, t), some (u, _) => if u.any Value.isSignal then some (v, t) else i.evalProgram second site t
  | _, _ => none

end Interpreter

end Monkey
