import Monkey.Lexer
import Monkey.Syntax

namespace Monkey

inductive SyntaxNode where
  | statement (s : Statement)
  | expression (e : Expr)
  | block (b : Block)
  | identifier (id : Identifier)

namespace SyntaxNode

def span : SyntaxNode → Span
  | statement s => s.span
  | expression e => e.span
  | block b => b.span
  | identifier id => id.span

/-- The nodes that it is made of, in the order in which they are written. -/
def children : SyntaxNode → List SyntaxNode
  | statement (.bind id value _) => [.identifier id, .expression value]
  | statement (.ret value _) => value.toList.map .expression
  | statement (.expr value) => [.expression value]
  | expression (.name id) => [.identifier id]
  | expression (.int _ _) | expression (.str _ _) | expression (.bool _ _) => []
  | expression (.unary _ operand _) => [.expression operand]
  | expression (.binary _ left right _) => [.expression left, .expression right]
  | expression (.cond condition consequence alternative _) =>
    .expression condition :: .block consequence :: alternative.toList.map .block
  | expression (.function parameters body _) => parameters.map .identifier ++ [.block body]
  | expression (.call callee arguments _) => .expression callee :: arguments.map .expression
  | expression (.array elements _) => elements.map .expression
  | expression (.index base index _) => [.expression base, .expression index]
  | expression (.hash pairs _) => pairs.flatMap fun p => [.expression p.1, .expression p.2]
  | block b => b.statements.map .statement
  | identifier _ => []

/-- The first node is the second one, or it is somewhere below. -/
inductive Within : SyntaxNode → SyntaxNode → Prop
  | self (n : SyntaxNode) : Within n n
  | under {m child n : SyntaxNode} : child ∈ n.children → Within m child → Within m n

/-- The number of a function literal. -/
def number? : SyntaxNode → Option Nat
  | expression (.function _ _ place) => some place.number
  | _ => none

/-- The span of the node is made of whole tokens of the source, up to the end of input at most, and the spans of its
children lie in it side by side. -/
structure Nested (source : String) (n : SyntaxNode) : Prop where
  nonempty : n.span.start < n.span.stop
  starts : ∃ t ∈ (lex source).dropLast, n.span.start = t.span.start
  stops : (∃ t ∈ (lex source).dropLast, n.span.stop = t.span.stop) ∨ n.span.stop = source.utf8ByteSize
  inside : ∀ child ∈ n.children, n.span.start ≤ child.span.start ∧ child.span.stop ≤ n.span.stop
  apart : n.children.Pairwise fun child next => child.span.stop ≤ next.span.start

end SyntaxNode

namespace Program

/-- The node is one of the statements or below one. -/
def Contains (p : Program) (n : SyntaxNode) : Prop := ∃ st ∈ p.statements, n.Within (.statement st)

/-- No two function literals have the same number. -/
def Numbered (p : Program) : Prop :=
  ∀ (n m : SyntaxNode) (k : Nat), p.Contains n → p.Contains m → n.number? = some k → m.number? = some k → n = m

end Program

end Monkey
