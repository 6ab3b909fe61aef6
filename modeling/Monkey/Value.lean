import Monkey.HashTable
import Monkey.Syntax.Render
import Monkey.Text.Quoted

namespace Monkey

/-- The number of an object, in the order of making. -/
abbrev Identity := Nat

/-- The number of a scope, in the order of opening. -/
abbrev ScopeId := Nat

/-- The number of a source text, in the order of loading. -/
abbrev SourceId := Nat

inductive Builtin where
  | len | puts | first | last | rest | push
  deriving DecidableEq

namespace Builtin

def name : Builtin → String
  | .len => "len"
  | .puts => "puts"
  | .first => "first"
  | .last => "last"
  | .rest => "rest"
  | .push => "push"

def all : List Builtin := [.len, .puts, .first, .last, .rest, .push]

def ofName? (name : String) : Option Builtin := all.find? (·.name == name)

end Builtin

/-- A function literal. It is known by the source that it stands in and its number there. -/
structure Function where
  source : SourceId
  parameters : List Identifier
  body : Block
  place : Place
  deriving Inhabited

namespace Function

def sameLiteral (f g : Function) : Bool := f.source == g.source && f.place.number == g.place.number

def render (f : Function) : String := (Expr.function f.parameters f.body f.place).render

end Function

/-- A function literal with the scope that it was evaluated in. -/
structure Closure where
  function : Function
  scope : ScopeId
  deriving Inhabited

def Closure.same (c d : Closure) : Bool := c.function.sameLiteral d.function && c.scope == d.scope

/-- The literal, with a mark for the scope that is not shown. -/
def Closure.describe (c : Closure) : String :=
  "FunctionObject \x7b literal: " ++ Text.quote c.function.render ++ ", .. \x7d"

/-- Strings, errors, return marks, arrays and hashes are objects with an identity of their own, drawn from a counter
when they are made; all other values are told apart by what they are. -/
inductive Value where
  | int (n : Int64)
  | str (id : Identity) (text : String)
  | bool (b : Bool)
  | null
  /-- A value on its way out of a function or a program. -/
  | ret (id : Identity) (value : Value)
  | error (id : Identity) (message : String)
  | function (closure : Closure)
  | builtin (b : Builtin)
  | array (id : Identity) (elements : List Value)
  | hash (id : Identity) (table : HashTable Value)

instance : Inhabited Value := ⟨.null⟩

inductive Kind where
  | int | str | bool | null | ret | error | function | builtin | array | hash
  deriving DecidableEq

/-- The name by which error messages call the kind. -/
def Kind.name : Kind → String
  | .int => "INTEGER"
  | .str => "STRING"
  | .bool => "BOOLEAN"
  | .null => "NULL"
  | .ret => "RETURN_VALUE"
  | .error => "ERROR"
  | .function => "FUNCTION"
  | .builtin => "BUILTIN_FUNCTION"
  | .array => "ARRAY"
  | .hash => "HASH"

namespace Value

def kind : Value → Kind
  | .int _ => .int
  | .str .. => .str
  | .bool _ => .bool
  | .null => .null
  | .ret .. => .ret
  | .error .. => .error
  | .function _ => .function
  | .builtin _ => .builtin
  | .array .. => .array
  | .hash .. => .hash

def isError : Value → Bool
  | .error .. => true
  | _ => false

/-- Only `false` and null are not true. -/
def isTruthy : Value → Bool
  | .bool false | .null => false
  | _ => true

/-- Integers, booleans and strings can be keys of a hash. -/
def hashKey? : Value → Option HashKey
  | .int n => some (.int n)
  | .bool b => some (.bool b)
  | .str _ s => some (.str s)
  | _ => none

/-- Whether the two are one object, or values that have no identity and are the same. -/
def identical : Value → Value → Bool
  | .int m, .int n => m == n
  | .bool a, .bool b => a == b
  | .null, .null => true
  | .builtin a, .builtin b => a == b
  | .str i _, .str j _ | .error i _, .error j _ | .ret i _, .ret j _ | .array i _, .array j _
  | .hash i _, .hash j _ => i == j
  | .function c, .function d => c.same d
  | _, _ => false

theorem identical_int_iff {n : Int64} {v : Value} : (int n).identical v = true ↔ v = .int n := by
  cases v with
  | int m => exact beq_iff_eq.trans ⟨fun h => h ▸ rfl, fun h => (int.inj h).symm⟩
  | _ => exact ⟨fun h => (Bool.false_ne_true h).elim, fun h => (Value.noConfusion h)⟩

mutual

/-- Whether the two have the same content. Hashes are compared entry by entry, in order. -/
def equal : Value → Value → Bool
  | .int m, .int n => m == n
  | .str _ s, .str _ t | .error _ s, .error _ t => s == t
  | .bool a, .bool b => a == b
  | .null, .null => true
  | .ret _ v, .ret _ w => v.equal w
  | .function c, .function d => c.same d
  | .builtin a, .builtin b => a == b
  | .array _ vs, .array _ ws => equalElements vs ws
  | .hash _ t, .hash _ u => equalTables t u
  | _, _ => false

def equalElements : List Value → List Value → Bool
  | [], [] => true
  | v :: vs, w :: ws => v.equal w && equalElements vs ws
  | _, _ => false

def equalTables : HashTable Value → HashTable Value → Bool
  | ⟨⟨ps⟩, _⟩, u => equalEntries ps u.toList

def equalEntries : List (Value × Value) → List (Value × Value) → Bool
  | [], [] => true
  | (k, v) :: ps, (l, w) :: qs => k.equal l && v.equal w && equalEntries ps qs
  | _, _ => false

end

mutual

/-- The text that shows a value. -/
def inspect : Value → String
  | .int n => toString n.toInt
  | .str _ s => s
  | .bool true => "true"
  | .bool false => "false"
  | .null => "null"
  | .ret _ v => v.inspect
  | .error _ message => "ERROR: " ++ message
  | .function c => c.function.render
  | .builtin _ => "builtin function"
  | .array _ vs => "[" ++ inspectElements vs ++ "]"
  | .hash _ t => inspectTable t

def inspectElements : List Value → String
  | [] => ""
  | v :: vs => v.inspect ++ inspectElementsRest vs

def inspectElementsRest : List Value → String
  | [] => ""
  | v :: vs => ", " ++ v.inspect ++ inspectElementsRest vs

def inspectTable : HashTable Value → String
  | ⟨⟨ps⟩, _⟩ => "\x7b" ++ inspectEntries ps ++ "\x7d"

def inspectEntries : List (Value × Value) → String
  | [] => ""
  | (k, v) :: ps => k.inspect ++ ": " ++ v.inspect ++ inspectEntriesRest ps

def inspectEntriesRest : List (Value × Value) → String
  | [] => ""
  | (k, v) :: ps => ", " ++ k.inspect ++ ": " ++ v.inspect ++ inspectEntriesRest ps

end

mutual

/-- Adds the scopes of the closures in a value. Closures in the keys of a hash there are none. -/
def addScopes (found : List ScopeId) : Value → List ScopeId
  | .ret _ v => v.addScopes found
  | .function c => c.scope :: found
  | .array _ vs => addElementScopes found vs
  | .hash _ t => addTableScopes found t
  | _ => found

def addElementScopes (found : List ScopeId) : List Value → List ScopeId
  | [] => found
  | v :: vs => addElementScopes (v.addScopes found) vs

def addTableScopes (found : List ScopeId) : HashTable Value → List ScopeId
  | ⟨⟨ps⟩, _⟩ => addEntryScopes found ps

def addEntryScopes (found : List ScopeId) : List (Value × Value) → List ScopeId
  | [] => found
  | (_, v) :: ps => addEntryScopes (v.addScopes found) ps

end

/-- The scopes that a value holds directly. -/
def scopes (v : Value) : List ScopeId := v.addScopes []

end Value

end Monkey
