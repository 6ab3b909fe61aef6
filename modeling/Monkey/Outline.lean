import Monkey.Grammar
import Monkey.Recovery
import Monkey.RuleTable
import Monkey.Syntax.Nodes

namespace Monkey

/-- The cursor moves from one place to the other, and these are the current tokens on the way, both ends included. -/
inductive Cursor.Row : Cursor → Cursor → List Token → Prop
  | stay (c : Cursor) : Row c c [c.current]
  | move {c c' : Cursor} {ts : List Token} : Row c.advance c' ts → Row c c' (c.current :: ts)

/-- An expression of which the operators, calls and indices outside brackets are laid open. -/
inductive Outline where
  /-- One token, or something that begins and ends with brackets and words of its own. -/
  | closed (e : Expr)
  /-- An expression in parentheses. -/
  | grouped (e : Expr)
  | unary (op : UnaryOp) (operand : Outline) (span : Span)
  | binary (op : BinaryOp) (left right : Outline) (span : Span)
  | call (callee : Outline) (arguments : List Expr) (span : Span)
  | index (base : Outline) (i : Expr) (span : Span)

/-- A binary operator with what stands to its left and to its right. -/
structure Infix where
  op : BinaryOp
  left : Outline
  right : Outline

namespace Outline

def expr : Outline → Expr
  | closed e | grouped e => e
  | unary op operand span => .unary op operand.expr span
  | binary op left right span => .binary op left.expr right.expr span
  | call callee arguments span => .call callee.expr arguments span
  | index base i span => .index base.expr i span

/-- How strongly the operator on top binds, if there is one outside brackets. -/
def top? : Outline → Option Precedence
  | closed _ | grouped _ => none
  | unary .. => some .unary
  | binary op .. => some op.precedence
  | call .. | index .. => some .call

/-- The binary operators outside brackets. -/
def infixes : Outline → List Infix
  | closed _ | grouped _ => []
  | unary _ operand _ => operand.infixes
  | binary op left right _ => ⟨op, left, right⟩ :: (left.infixes ++ right.infixes)
  | call callee _ _ => callee.infixes
  | index base _ _ => base.infixes

end Outline

/-- The operator binds more tightly than `above`. To its left nothing binds less tightly than itself, and to its right
everything binds more tightly. -/
structure Infix.Fits (above : Precedence) (x : Infix) : Prop where
  above : above < x.op.precedence
  left : ∀ q ∈ x.left.top?, ¬ q < x.op.precedence
  right : ∀ q ∈ x.right.top?, x.op.precedence < q

/-- The tokens are those of the block, from its opening brace to the token on which the loop of its statements ends: the
closing brace, or the end token when the block is cut off. -/
inductive BlockText : Block → List Token → Prop
  | mk {ss : List Statement} {s t : Parser.State} {brace : Token} {ts : List Token} (span : Span) :
      brace.kind = .lbrace →
      CallTree.Returns Parser.produce (Parser.produce (.statements true) s) (.ok ss) t →
      s.cursor.Row t.cursor ts → t.cursor.current.kind = .eof ∨ t.cursor.current.kind = .rbrace →
      BlockText (.mk ss span) (brace :: ts)

/-- The tokens of the alternative of a conditional, if it has one. -/
inductive AlternativeText : Option Block → List Token → Prop
  | none : AlternativeText none []
  | some {b : Block} {t : Token} {ts : List Token} :
      t.kind = .elseWord → BlockText b ts → AlternativeText (some b) (t :: ts)

/-- The kind of the last token. -/
def lastKind? (ts : List Token) : Option TokenKind := ts.getLast?.map (·.kind)

/-- The tokens end with those of a block of the expression that is cut off. -/
def EndsCutOff (e : Expr) (ts : List Token) : Prop :=
  ∃ b us, us <:+ ts ∧ BlockText b us ∧ lastKind? us = some .eof ∧ (SyntaxNode.block b).Within (.expression e)

/-- What can be written. -/
inductive Phrase where
  | outline
  | expression
  /-- An expression without operators, calls and indices outside brackets. -/
  | closed
  | parameter
  | pair
  /-- Items with commas between them, at least one. -/
  | items (item : Phrase)
  | list (item : Phrase) (opening closing : TokenKind)

namespace Phrase

abbrev Node : Phrase → Type
  | outline => Outline
  | expression | closed => Expr
  | parameter => Identifier
  | pair => Expr × Expr
  | items item | list item _ _ => List item.Node

/-- The tokens, from the first to the last, are what is written for the node. Operators are taken as they come. -/
inductive Written : (p : Phrase) → p.Node → List Token → Prop
  | closed {e : Expr} {ts : List Token} : Written .closed e ts → Written .outline (.closed e) ts
  | grouped {e : Expr} {t t' : Token} {ts : List Token} :
      t.kind = .lparen → Written .expression e ts → t'.kind = .rparen →
      Written .outline (.grouped e) (t :: (ts ++ [t']))
  | unary {op : UnaryOp} {o : Outline} {t : Token} {ts : List Token} (span : Span) :
      UnaryOp.ofKind? t.kind = some op → Written .outline o ts → Written .outline (.unary op o span) (t :: ts)
  | binary {op : BinaryOp} {l r : Outline} {t : Token} {ts us : List Token} (span : Span) :
      Written .outline l ts → BinaryOp.ofKind? t.kind = some op → Written .outline r us →
      Written .outline (.binary op l r span) (ts ++ t :: us)
  | call {f : Outline} {as : List Expr} {ts us : List Token} (span : Span) :
      Written .outline f ts → Written (.list .expression .lparen .rparen) as us →
      Written .outline (.call f as span) (ts ++ us)
  | index {b : Outline} {i : Expr} {t t' : Token} {ts us : List Token} (span : Span) :
      Written .outline b ts → t.kind = .lbracket → Written .expression i us → t'.kind = .rbracket →
      Written .outline (.index b i span) (ts ++ t :: (us ++ [t']))
  | expression {o : Outline} {ts : List Token} : Written .outline o ts → Written .expression o.expr ts
  /-- A token that stands for an expression by itself. -/
  | word {e : Expr} {t : Token} : Grammar.Reads .primary e [t] [] → Written .closed e [t]
  | array {es : List Expr} {ts : List Token} (span : Span) :
      Written (.list .expression .lbracket .rbracket) es ts → Written .closed (.array es span) ts
  | hash {ps : List (Expr × Expr)} {ts : List Token} (span : Span) :
      Written (.list .pair .lbrace .rbrace) ps ts → Written .closed (.hash ps span) ts
  | cond {c : Expr} {b : Block} {a : Option Block} {t t₁ t₂ : Token} {ts us vs : List Token} (span : Span) :
      t.kind = .ifWord → t₁.kind = .lparen → Written .expression c ts → t₂.kind = .rparen → BlockText b us →
      AlternativeText a vs → Written .closed (.cond c b a span) (t :: t₁ :: (ts ++ t₂ :: (us ++ vs)))
  | function {ps : List Identifier} {b : Block} {t : Token} {ts us : List Token} (place : Place) :
      t.kind = .fnWord → Written (.list .parameter .lparen .rparen) ps ts → BlockText b us →
      Written .closed (.function ps b place) (t :: (ts ++ us))
  | parameter {t : Token} (span : Span) : t.kind = .ident → Written .parameter ⟨t.literal, span⟩ [t]
  | pair {k v : Expr} {t : Token} {ts us : List Token} :
      Written .expression k ts → t.kind = .colon → Written .expression v us → Written .pair (k, v) (ts ++ t :: us)
  | one {item : Phrase} {a : item.Node} {ts : List Token} : Written item a ts → Written (.items item) [a] ts
  | more {item : Phrase} {a : item.Node} {as : List item.Node} {t : Token} {ts us : List Token} :
      Written item a ts → t.kind = .comma → Written (.items item) as us →
      Written (.items item) (a :: as) (ts ++ t :: us)
  | emptyList {item : Phrase} {opening closing : TokenKind} {t t' : Token} :
      t.kind = opening → t'.kind = closing → Written (.list item opening closing) [] [t, t']
  | list {item : Phrase} {opening closing : TokenKind} {as : List item.Node} {t t' : Token} {ts : List Token} :
      t.kind = opening → Written (.items item) as ts → t'.kind = closing →
      Written (.list item opening closing) as (t :: (ts ++ [t']))

end Phrase

end Monkey
