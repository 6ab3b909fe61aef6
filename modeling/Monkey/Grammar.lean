import Monkey.Parser

namespace Monkey

namespace Grammar

/-- What a row of tokens can be. -/
inductive Symbol where
  /-- An expression of which the operators outside brackets bind at least as tightly as `weakest`. -/
  | expression (weakest : Precedence)
  /-- An expression without operators, calls and indices outside brackets. -/
  | primary
  | parameter
  | pair
  /-- Items with commas between them, at least one. -/
  | items (item : Symbol)
  /-- No items or some, up to a closing bracket. -/
  | list (item : Symbol) (closing : TokenKind)
  | statement
  | statements
  /-- Statements in braces, of which the end of input stands for the closing one. -/
  | block
  | alternative

/-- What it stands for. -/
abbrev Symbol.Node : Symbol → Type
  | .expression _ | .primary => Expr
  | .parameter => Identifier
  | .pair => Expr × Expr
  | .items item | .list item _ => List item.Node
  | .statement => Statement
  | .statements => List Statement
  | .block => Block
  | .alternative => Option Block

/-- The levels of expressions, each with the next one, of which the operators bind more tightly. -/
inductive Next : Precedence → Precedence → Prop
  | lowest : Next .lowest .equality
  | equality : Next .equality .comparison
  | comparison : Next .comparison .sum
  | sum : Next .sum .product
  | product : Next .product .unary
  | unary : Next .unary .call

/-- The signs of the binary operators, with the operators and their levels. -/
inductive Sign : TokenKind → BinaryOp → Precedence → Prop
  | eq : Sign .eq .eq .equality
  | notEq : Sign .notEq .notEq .equality
  | lt : Sign .lt .lt .comparison
  | gt : Sign .gt .gt .comparison
  | add : Sign .plus .add .sum
  | sub : Sign .minus .sub .sum
  | mul : Sign .asterisk .mul .product
  | div : Sign .slash .div .product

/-- A token can carry an expression on: as an operator, or as the bracket of a call or an index. -/
inductive CarriesOn : TokenKind → Prop
  | sign {kind : TokenKind} {op : BinaryOp} {p : Precedence} : Sign kind op p → CarriesOn kind
  | call : CarriesOn .lparen
  | index : CarriesOn .lbracket

/-- The value of a row of decimal digits, of which each counts by its place. -/
def numeral : List Char → Nat
  | [] => 0
  | c :: cs => (c.toNat - '0'.toNat) * Nat.pow 10 cs.length + numeral cs

/-- The end of a statement: its semicolon, or nothing before a token that cannot carry it on. -/
inductive Ends : List Token → List Token → Prop
  | semicolon {t : Token} {rest : List Token} : t.kind = .semicolon → Ends (t :: rest) rest
  | nothing {rest : List Token} : (∀ t ∈ rest.head?, ¬ CarriesOn t.kind) → Ends rest rest

/-- The tokens stand for the node up to a rest that is left. An expression of a level is one of the next level, or ends
with an operator of its own that has an expression of its level to the left and one of the next level to the right: so
tighter operators are deeper, and operators of one level group to the left. -/
inductive Reads : (s : Symbol) → s.Node → List Token → List Token → Prop
  | tighter {p q : Precedence} {e : Expr} {ts rest : List Token} :
      Next p q → Reads (.expression q) e ts rest → Reads (.expression p) e ts rest
  | primary {e : Expr} {ts rest : List Token} :
      Reads .primary e ts rest → Reads (.expression .call) e ts rest
  | call {f : Expr} {as : List Expr} {t : Token} {ts mid rest : List Token} (span : Span) :
      Reads (.expression .call) f ts (t :: mid) → t.kind = .lparen →
      Reads (.list (.expression .lowest) .rparen) as mid rest →
      Reads (.expression .call) (.call f as span) ts rest
  | index {b i : Expr} {t t' : Token} {ts mid rest : List Token} (span : Span) :
      Reads (.expression .call) b ts (t :: mid) → t.kind = .lbracket →
      Reads (.expression .lowest) i mid (t' :: rest) → t'.kind = .rbracket →
      Reads (.expression .call) (.index b i span) ts rest
  | not {e : Expr} {t : Token} {ts rest : List Token} (span : Span) :
      t.kind = .bang → Reads (.expression .unary) e ts rest →
      Reads (.expression .unary) (.unary .not e span) (t :: ts) rest
  | neg {e : Expr} {t : Token} {ts rest : List Token} (span : Span) :
      t.kind = .minus → Reads (.expression .unary) e ts rest →
      Reads (.expression .unary) (.unary .neg e span) (t :: ts) rest
  | binary {op : BinaryOp} {p q : Precedence} {l r : Expr} {t : Token} {ts mid rest : List Token}
      (span : Span) :
      Reads (.expression p) l ts (t :: mid) → Sign t.kind op p → Next p q →
      Reads (.expression q) r mid rest →
      Reads (.expression p) (.binary op l r span) ts rest
  | name {t : Token} {rest : List Token} (span : Span) :
      t.kind = .ident → Reads .primary (.name ⟨t.literal, span⟩) (t :: rest) rest
  | int {n : Int64} {t : Token} {rest : List Token} (span : Span) :
      t.kind = .int → n.toInt = numeral t.literal.toList → Reads .primary (.int n span) (t :: rest) rest
  | str {t : Token} {rest : List Token} (span : Span) :
      t.kind = .str → Reads .primary (.str t.literal span) (t :: rest) rest
  | trueWord {t : Token} {rest : List Token} (span : Span) :
      t.kind = .trueWord → Reads .primary (.bool true span) (t :: rest) rest
  | falseWord {t : Token} {rest : List Token} (span : Span) :
      t.kind = .falseWord → Reads .primary (.bool false span) (t :: rest) rest
  | grouped {e : Expr} {t t' : Token} {ts rest : List Token} :
      t.kind = .lparen → Reads (.expression .lowest) e ts (t' :: rest) → t'.kind = .rparen →
      Reads .primary e (t :: ts) rest
  | cond {c : Expr} {b : Block} {a : Option Block} {t t₁ t₂ : Token} {ts mid last rest : List Token}
      (span : Span) :
      t.kind = .ifWord → t₁.kind = .lparen → Reads (.expression .lowest) c ts (t₂ :: mid) →
      t₂.kind = .rparen → Reads .block b mid last → Reads .alternative a last rest →
      Reads .primary (.cond c b a span) (t :: t₁ :: ts) rest
  | noAlternative {rest : List Token} : Reads .alternative none rest rest
  | alternative {b : Block} {t : Token} {ts rest : List Token} :
      t.kind = .elseWord → Reads .block b ts rest → Reads .alternative (some b) (t :: ts) rest
  | function {ps : List Identifier} {b : Block} {t t₁ : Token} {ts mid rest : List Token} (place : Place) :
      t.kind = .fnWord → t₁.kind = .lparen → Reads (.list .parameter .rparen) ps ts mid →
      Reads .block b mid rest → Reads .primary (.function ps b place) (t :: t₁ :: ts) rest
  | array {es : List Expr} {t : Token} {ts rest : List Token} (span : Span) :
      t.kind = .lbracket → Reads (.list (.expression .lowest) .rbracket) es ts rest →
      Reads .primary (.array es span) (t :: ts) rest
  | hash {ps : List (Expr × Expr)} {t : Token} {ts rest : List Token} (span : Span) :
      t.kind = .lbrace → Reads (.list .pair .rbrace) ps ts rest →
      Reads .primary (.hash ps span) (t :: ts) rest
  | parameter {t : Token} {rest : List Token} (span : Span) :
      t.kind = .ident → Reads .parameter ⟨t.literal, span⟩ (t :: rest) rest
  | pair {k v : Expr} {t : Token} {ts mid rest : List Token} :
      Reads (.expression .lowest) k ts (t :: mid) → t.kind = .colon →
      Reads (.expression .lowest) v mid rest → Reads .pair (k, v) ts rest
  | one {item : Symbol} {a : item.Node} {ts rest : List Token} :
      Reads item a ts rest → Reads (.items item) [a] ts rest
  | more {item : Symbol} {a : item.Node} {as : List item.Node} {t : Token} {ts mid rest : List Token} :
      Reads item a ts (t :: mid) → t.kind = .comma → Reads (.items item) as mid rest →
      Reads (.items item) (a :: as) ts rest
  | emptyList {item : Symbol} {closing : TokenKind} {t : Token} {rest : List Token} :
      t.kind = closing → Reads (.list item closing) [] (t :: rest) rest
  | list {item : Symbol} {closing : TokenKind} {as : List item.Node} {t : Token} {ts rest : List Token} :
      Reads (.items item) as ts (t :: rest) → t.kind = closing → Reads (.list item closing) as ts rest
  | bind {e : Expr} {t t₁ t₂ : Token} {ts mid rest : List Token} (nameSpan span : Span) :
      t.kind = .letWord → t₁.kind = .ident → t₂.kind = .assign → Reads (.expression .lowest) e ts mid →
      Ends mid rest → Reads .statement (.bind ⟨t₁.literal, nameSpan⟩ e span) (t :: t₁ :: t₂ :: ts) rest
  | ret {e : Expr} {t : Token} {ts mid rest : List Token} (span : Span) :
      t.kind = .returnWord → Reads (.expression .lowest) e ts mid → Ends mid rest →
      Reads .statement (.ret (some e) span) (t :: ts) rest
  | bareRet {t t' : Token} {rest : List Token} (span : Span) :
      t.kind = .returnWord → t'.kind = .semicolon → Reads .statement (.ret none span) (t :: t' :: rest) rest
  | lastRet {t : Token} {rest : List Token} (span : Span) :
      t.kind = .returnWord → (∀ t' ∈ rest.head?, t'.kind = .rbrace) →
      Reads .statement (.ret none span) (t :: rest) rest
  | expr {e : Expr} {ts mid rest : List Token} :
      Reads (.expression .lowest) e ts mid → Ends mid rest → Reads .statement (.expr e) ts rest
  | noStatements {rest : List Token} : Reads .statements [] rest rest
  | moreStatements {s : Statement} {ss : List Statement} {ts mid rest : List Token} :
      Reads .statement s ts mid → Reads .statements ss mid rest → Reads .statements (s :: ss) ts rest
  | block {ss : List Statement} {t t' : Token} {ts rest : List Token} (span : Span) :
      t.kind = .lbrace → Reads .statements ss ts (t' :: rest) → t'.kind = .rbrace →
      Reads .block (.mk ss span) (t :: ts) rest
  | cutBlock {ss : List Statement} {t : Token} {ts : List Token} (span : Span) :
      t.kind = .lbrace → Reads .statements ss ts [] → Reads .block (.mk ss span) (t :: ts) []

/-- The tokens, without the end token, stand for the program, whatever its spans. -/
def Derives (ts : List Token) (p : Program) : Prop := Reads .statements p.statements ts []

end Grammar

end Monkey
