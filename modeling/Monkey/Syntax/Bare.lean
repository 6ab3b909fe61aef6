import Monkey.Syntax.Views

namespace Monkey

def Identifier.bare (id : Identifier) : Identifier := id.mapSpan fun _ => .origin

def Place.bare (p : Place) : Place := p.map (fun _ => .origin) id

def Expr.bare (e : Expr) : Expr := e.mapSpans (fun _ => .origin) id

def Block.bare (b : Block) : Block := b.mapSpans (fun _ => .origin) id

def Statement.bare (s : Statement) : Statement := s.mapSpans (fun _ => .origin) id

def Program.bare (p : Program) : Program := p.mapSpans (fun _ => .origin) id

/-- The pair of a hash literal with both parts bare. -/
def barePair (p : Expr × Expr) : Expr × Expr := (p.1.bare, p.2.bare)

@[simp] theorem Identifier.bare_name (id : Identifier) : id.bare.name = id.name := rfl

@[simp] theorem Place.bare_number (p : Place) : p.bare.number = p.number := rfl

namespace Expr

variable (e l r : Expr) (b : Block) (span : Span)

@[simp] theorem bare_name (id : Identifier) : (name id).bare = name id.bare := rfl

@[simp] theorem bare_int (n : Int64) : (int n span).bare = int n .origin := rfl

@[simp] theorem bare_str (text : String) : (str text span).bare = str text .origin := rfl

@[simp] theorem bare_bool (value : Bool) : (bool value span).bare = bool value .origin := rfl

@[simp] theorem bare_unary (op : UnaryOp) : (unary op e span).bare = unary op e.bare .origin := rfl

@[simp] theorem bare_binary (op : BinaryOp) : (binary op l r span).bare = binary op l.bare r.bare .origin := rfl

@[simp] theorem bare_cond (otherwise : Option Block) :
    (cond e b otherwise span).bare = cond e.bare b.bare (otherwise.map Block.bare) .origin :=
  seen_cond .bare e b span otherwise

@[simp] theorem bare_function (ps : List Identifier) (place : Place) :
    (function ps b place).bare = function (ps.map Identifier.bare) b.bare place.bare := rfl

@[simp] theorem bare_call (arguments : List Expr) :
    (call e arguments span).bare = call e.bare (arguments.map bare) .origin :=
  seen_call .bare e span arguments

@[simp] theorem bare_array (es : List Expr) : (array es span).bare = array (es.map bare) .origin :=
  seen_array .bare span es

@[simp] theorem bare_index : (index l r span).bare = index l.bare r.bare .origin := rfl

@[simp] theorem bare_hash (pairs : List (Expr × Expr)) :
    (hash pairs span).bare = hash (pairs.map barePair) .origin :=
  seen_hash .bare span pairs

end Expr

namespace Statement

variable (e : Expr) (span : Span)

@[simp] theorem bare_bind (id : Identifier) : (bind id e span).bare = bind id.bare e.bare .origin := rfl

@[simp] theorem bare_ret (value : Option Expr) : (ret value span).bare = ret (value.map Expr.bare) .origin :=
  seen_ret .bare span value

@[simp] theorem bare_expr : (expr e).bare = expr e.bare := rfl

end Statement

@[simp] theorem Block.bare_mk (ss : List Statement) (span : Span) :
    (Block.mk ss span).bare = .mk (ss.map Statement.bare) .origin :=
  seen_mk .bare ss span

@[simp] theorem Block.statements_bare (b : Block) : b.bare.statements = b.statements.map Statement.bare := by
  cases b
  rw [bare_mk]
  rfl

@[simp] theorem Program.statements_bare (p : Program) : p.bare.statements = p.statements.map Statement.bare :=
  mapStatements_eq_map _ _ _

end Monkey
