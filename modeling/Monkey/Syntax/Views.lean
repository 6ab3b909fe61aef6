import Monkey.Syntax.Spans

namespace Monkey

/-- How spans and the numbers of function literals are seen. -/
structure View where
  span : Span → Span
  number : Nat → Nat

namespace View

/-- All is seen as it is. -/
def plain : View := ⟨id, id⟩

/-- Spans are not seen. -/
def bare : View := ⟨fun _ => .origin, id⟩

/-- Neither spans nor numbers are seen. -/
def erased : View := ⟨fun _ => .origin, fun _ => 0⟩

/-- All is seen as if the text stood so many bytes and so many function literals further on. -/
def shift (bytes literals : Nat) : View := ⟨Span.shift bytes, (· + literals)⟩

end View

section Seen

variable (v : View)

def Identifier.seen (id : Identifier) : Identifier := id.mapSpan v.span

def Place.seen (p : Place) : Place := p.map v.span v.number

def Expr.seen (e : Expr) : Expr := e.mapSpans v.span v.number

def Block.seen (b : Block) : Block := b.mapSpans v.span v.number

def Statement.seen (s : Statement) : Statement := s.mapSpans v.span v.number

/-- The pair of a hash literal with both parts in view. -/
def seenPair (p : Expr × Expr) : Expr × Expr := (p.1.seen v, p.2.seen v)

namespace Expr

variable (e l r : Expr) (b : Block) (span : Span)

theorem seen_name (id : Identifier) : (name id).seen v = name (id.seen v) := rfl

theorem seen_int (n : Int64) : (int n span).seen v = int n (v.span span) := rfl

theorem seen_str (text : String) : (str text span).seen v = str text (v.span span) := rfl

theorem seen_bool (value : Bool) : (bool value span).seen v = bool value (v.span span) := rfl

theorem seen_unary (op : UnaryOp) : (unary op e span).seen v = unary op (e.seen v) (v.span span) := rfl

theorem seen_binary (op : BinaryOp) :
    (binary op l r span).seen v = binary op (l.seen v) (r.seen v) (v.span span) := rfl

theorem seen_cond (otherwise : Option Block) :
    (cond e b otherwise span).seen v =
      cond (e.seen v) (b.seen v) (otherwise.map (Block.seen v)) (v.span span) := by
  rw [seen, mapSpans, mapAlternative_eq_map]
  rfl

theorem seen_function (ps : List Identifier) (place : Place) :
    (function ps b place).seen v = function (ps.map (Identifier.seen v)) (b.seen v) (place.seen v) := rfl

theorem seen_call (arguments : List Expr) :
    (call e arguments span).seen v = call (e.seen v) (arguments.map (seen v)) (v.span span) := by
  rw [seen, mapSpans, mapList_eq_map]
  rfl

theorem seen_array (es : List Expr) : (array es span).seen v = array (es.map (seen v)) (v.span span) := by
  rw [seen, mapSpans, mapList_eq_map]
  rfl

theorem seen_index : (index l r span).seen v = index (l.seen v) (r.seen v) (v.span span) := rfl

theorem seen_hash (pairs : List (Expr × Expr)) :
    (hash pairs span).seen v = hash (pairs.map (seenPair v)) (v.span span) := by
  rw [seen, mapSpans, mapPairs_eq_map]
  rfl

theorem span_seen : (e.seen v).span = v.span e.span := by
  cases e <;> rfl

end Expr

namespace Statement

variable (e : Expr) (span : Span)

theorem seen_bind (id : Identifier) : (bind id e span).seen v = bind (id.seen v) (e.seen v) (v.span span) := rfl

theorem seen_ret (value : Option Expr) :
    (ret value span).seen v = ret (value.map (Expr.seen v)) (v.span span) := by
  cases value <;> rfl

theorem seen_expr : (expr e).seen v = expr (e.seen v) := rfl

end Statement

theorem Block.seen_mk (ss : List Statement) (span : Span) :
    (Block.mk ss span).seen v = .mk (ss.map (Statement.seen v)) (v.span span) := by
  rw [seen, mapSpans, mapStatements_eq_map]
  rfl

end Seen

section Plain

/-- In plain view a statement is as it is. -/
@[simp] theorem Statement.seen_plain (s : Statement) : s.seen .plain = s := s.mapSpans_id

@[simp] theorem map_seen_plain (ss : List Statement) : ss.map (Statement.seen .plain) = ss := by
  rw [← mapStatements_id ss, mapStatements_eq_map, List.map_map]
  simp

end Plain

end Monkey
