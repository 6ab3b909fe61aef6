import Monkey.Span

namespace Monkey

structure Identifier where
  name : String
  span : Span
  deriving DecidableEq, Inhabited

inductive UnaryOp where
  | not | neg
  deriving DecidableEq, Inhabited

def UnaryOp.symbol : UnaryOp → String
  | .not => "!"
  | .neg => "-"

inductive BinaryOp where
  | add | sub | mul | div | lt | gt | eq | notEq
  deriving DecidableEq, Inhabited

def BinaryOp.symbol : BinaryOp → String
  | .add => "+"
  | .sub => "-"
  | .mul => "*"
  | .div => "/"
  | .lt => "<"
  | .gt => ">"
  | .eq => "=="
  | .notEq => "!="

/-- The place of a function literal. Spans of different literals may be the same, past the largest offset that they
can hold; the numbers are not. -/
structure Place where
  span : Span
  /-- How many function literals of the same text were made before. -/
  number : Nat
  deriving DecidableEq, Inhabited

namespace Place

instance : Coe Place Span := ⟨Place.span⟩

/-- The place of a literal that stands in no source text. -/
def origin : Place := ⟨.origin, 0⟩

/-- The place of the literal with this number, of those that stand in no source text. -/
def point (number : Nat) : Place := ⟨.origin, number⟩

end Place

mutual

inductive Expr where
  | name (id : Identifier)
  | int (value : Int64) (span : Span)
  | str (value : String) (span : Span)
  | bool (value : Bool) (span : Span)
  | unary (op : UnaryOp) (operand : Expr) (span : Span)
  | binary (op : BinaryOp) (left right : Expr) (span : Span)
  | cond (condition : Expr) (consequence : Block) (alternative : Option Block) (span : Span)
  | function (parameters : List Identifier) (body : Block) (place : Place)
  | call (callee : Expr) (arguments : List Expr) (span : Span)
  | array (elements : List Expr) (span : Span)
  | index (base index : Expr) (span : Span)
  | hash (pairs : List (Expr × Expr)) (span : Span)

inductive Statement where
  | bind (name : Identifier) (value : Expr) (span : Span)
  | ret (value : Option Expr) (span : Span)
  /-- An expression by itself; its value is the statement's value. -/
  | expr (value : Expr)

inductive Block where
  | mk (statements : List Statement) (span : Span)

end

instance : Inhabited Expr := ⟨.bool false .origin⟩

instance : Inhabited Block := ⟨.mk [] .origin⟩

instance : Inhabited Statement := ⟨.expr default⟩

namespace Block

def statements : Block → List Statement
  | .mk ss _ => ss

def span : Block → Span
  | .mk _ s => s

end Block

def Expr.span : Expr → Span
  | .name id => id.span
  | .int _ s | .str _ s | .bool _ s | .unary _ _ s | .binary _ _ _ s | .cond _ _ _ s | .call _ _ s | .array _ s
  | .index _ _ s | .hash _ s => s
  | .function _ _ place => place.span

def Statement.span : Statement → Span
  | .bind _ _ s | .ret _ s => s
  | .expr e => e.span

structure Program where
  statements : List Statement
  deriving Inhabited

def Program.isEmpty (p : Program) : Bool := p.statements.isEmpty

end Monkey
