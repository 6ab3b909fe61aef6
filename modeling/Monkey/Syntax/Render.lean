import Monkey.Syntax

namespace Monkey

/-- Whether the written form is already one pair of parentheses around the whole. -/
def Expr.isParenthesized : Expr → Bool
  | .unary .. | .binary .. | .index .. => true
  | _ => false

/-- Whether a semicolon has to keep the statement from the next one. -/
def Statement.needsSemicolon : Statement → Bool
  | .expr _ => true
  | _ => false

def renderNames (ids : List Identifier) : String := ", ".intercalate (ids.map (·.name))

mutual

def Expr.render : Expr → String
  | .name id => id.name
  | .int n _ => toString n.toInt
  | .str s _ => "\"" ++ s ++ "\""
  | .bool true _ => "true"
  | .bool false _ => "false"
  | .unary op e _ => "(" ++ op.symbol ++ e.render ++ ")"
  | .binary op l r _ => "(" ++ l.render ++ " " ++ op.symbol ++ " " ++ r.render ++ ")"
  | .cond c t e _ =>
    "if " ++ (if c.isParenthesized then c.render else "(" ++ c.render ++ ")") ++ " " ++ t.render ++
      renderAlternative e
  | .function ps b _ => "fn(" ++ renderNames ps ++ ") " ++ b.render
  | .call f as _ => f.render ++ "(" ++ renderList as ++ ")"
  | .array es _ => "[" ++ renderList es ++ "]"
  | .index b i _ => "(" ++ b.render ++ "[" ++ i.render ++ "])"
  | .hash ps _ => "\x7b" ++ renderPairs ps ++ "\x7d"

def renderAlternative : Option Block → String
  | none => ""
  | some b => "else " ++ b.render

def renderList : List Expr → String
  | [] => ""
  | e :: es => e.render ++ renderListRest es

def renderListRest : List Expr → String
  | [] => ""
  | e :: es => ", " ++ e.render ++ renderListRest es

def renderPairs : List (Expr × Expr) → String
  | [] => ""
  | (k, v) :: ps => k.render ++ ": " ++ v.render ++ renderPairsRest ps

def renderPairsRest : List (Expr × Expr) → String
  | [] => ""
  | (k, v) :: ps => ", " ++ k.render ++ ": " ++ v.render ++ renderPairsRest ps

def Statement.render : Statement → String
  | .bind id e _ => "let " ++ id.name ++ " = " ++ e.render ++ ";"
  | .ret (some e) _ => "return " ++ e.render ++ ";"
  | .ret none _ => "return;"
  | .expr e => e.render

def renderStatements : List Statement → String
  | [] => ""
  | [s] => s.render
  | s :: ss => s.render ++ (if s.needsSemicolon then "; " else " ") ++ renderStatements ss

def Block.render : Block → String
  | .mk [] _ => "\x7b \x7d"
  | .mk ss _ => "\x7b " ++ renderStatements ss ++ " \x7d"

end

def Program.render (p : Program) : String := renderStatements p.statements

end Monkey
