import Monkey.Grammar
import Monkey.Syntax.Views

namespace Monkey

namespace Grammar

/-- The node as if it stood in no source text. -/
def Symbol.erase : (symbol : Symbol) → symbol.Node → symbol.Node
  | .expression _, e | .primary, e => Expr.mapSpans (fun _ => .origin) (fun _ => 0) e
  | .parameter, id => Identifier.mapSpan (fun _ => .origin) id
  | .pair, p => (Expr.mapSpans (fun _ => .origin) (fun _ => 0) p.1, Expr.mapSpans (fun _ => .origin) (fun _ => 0) p.2)
  | .items item, as | .list item _, as => List.map item.erase as
  | .statement, s => Statement.mapSpans (fun _ => .origin) (fun _ => 0) s
  | .statements, ss => List.map (Statement.mapSpans (fun _ => .origin) fun _ => 0) ss
  | .block, b => Block.mapSpans (fun _ => .origin) (fun _ => 0) b
  | .alternative, b => Option.map (Block.mapSpans (fun _ => .origin) fun _ => 0) b

theorem Symbol.erase_cons {item : Symbol} {a b : item.Node} {as bs : List item.Node}
    (first : item.erase a = item.erase b)
    (others : (Symbol.items item).erase as = (Symbol.items item).erase bs) :
    (Symbol.items item).erase (a :: as) = (Symbol.items item).erase (b :: bs) := by
  have others : as.map item.erase = bs.map item.erase := others
  change (a :: as).map item.erase = (b :: bs).map item.erase
  rw [List.map_cons, List.map_cons, first, others]

section Erase

variable {e l r c : Expr} {b : Block} {a : Option Block} {span : Span}

theorem Symbol.erase_unary {op : UnaryOp} :
    Symbol.primary.erase (.unary op e span) = .unary op (Symbol.primary.erase e) .origin := rfl

theorem Symbol.erase_binary {op : BinaryOp} :
    Symbol.primary.erase (.binary op l r span) =
      .binary op (Symbol.primary.erase l) (Symbol.primary.erase r) .origin := rfl

theorem Symbol.erase_index :
    Symbol.primary.erase (.index l r span) =
      .index (Symbol.primary.erase l) ((Symbol.expression .lowest).erase r) .origin := rfl

theorem Symbol.erase_cond :
    Symbol.primary.erase (.cond c b a span) =
      .cond ((Symbol.expression .lowest).erase c) (Symbol.block.erase b) (Symbol.alternative.erase a) .origin :=
  Expr.seen_cond .erased c b span a

theorem Symbol.erase_function {ps : List Identifier} {place : Place} {closing : TokenKind} :
    Symbol.primary.erase (.function ps b place) =
      .function ((Symbol.list .parameter closing).erase ps) (Symbol.block.erase b) .origin := rfl

theorem Symbol.erase_call {as : List Expr} {closing : TokenKind} :
    Symbol.primary.erase (.call e as span) =
      .call (Symbol.primary.erase e) ((Symbol.list (.expression .lowest) closing).erase as) .origin :=
  Expr.seen_call .erased e span as

theorem Symbol.erase_array {es : List Expr} {closing : TokenKind} :
    Symbol.primary.erase (.array es span) =
      .array ((Symbol.list (.expression .lowest) closing).erase es) .origin :=
  Expr.seen_array .erased span es

theorem Symbol.erase_hash {ps : List (Expr × Expr)} {closing : TokenKind} :
    Symbol.primary.erase (.hash ps span) = .hash ((Symbol.list .pair closing).erase ps) .origin :=
  Expr.seen_hash .erased span ps

theorem Symbol.erase_block {ss : List Statement} :
    Symbol.block.erase (.mk ss span) = .mk (Symbol.statements.erase ss) .origin :=
  Block.seen_mk .erased ss span

end Erase

end Grammar

end Monkey
