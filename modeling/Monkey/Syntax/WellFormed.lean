import Monkey.Lexer
import Monkey.Syntax

namespace Monkey

/-- Whether a name is a letter or underscore and any number of letters, digits and underscores, and no
keyword. -/
def isIdentifier (name : String) : Bool :=
  match name.toList with
  | [] => false
  | c :: cs => isWordStart c && cs.all isWordPart && TokenKind.ofWord name == .ident

mutual

def Expr.isWellFormed : Expr → Bool
  | .name id => isIdentifier id.name
  | .int n _ => decide (0 ≤ n.toInt)
  | .str s _ => !s.toList.contains '"'
  | .bool .. => true
  | .unary _ e _ => e.isWellFormed
  | .binary _ l r _ => l.isWellFormed && r.isWellFormed
  | .cond c t e _ => c.isWellFormed && t.isWellFormed && alternativeIsWellFormed e
  | .function ps b _ => ps.all (isIdentifier ·.name) && b.isWellFormed
  | .call e as _ => e.isWellFormed && listIsWellFormed as
  | .array es _ => listIsWellFormed es
  | .index b i _ => b.isWellFormed && i.isWellFormed
  | .hash ps _ => pairsAreWellFormed ps

def alternativeIsWellFormed : Option Block → Bool
  | none => true
  | some b => b.isWellFormed

def listIsWellFormed : List Expr → Bool
  | [] => true
  | e :: es => e.isWellFormed && listIsWellFormed es

def pairsAreWellFormed : List (Expr × Expr) → Bool
  | [] => true
  | (k, v) :: ps => k.isWellFormed && v.isWellFormed && pairsAreWellFormed ps

def Statement.isWellFormed : Statement → Bool
  | .bind id e _ => isIdentifier id.name && e.isWellFormed
  | .ret none _ => true
  | .ret (some e) _ => e.isWellFormed
  | .expr e => e.isWellFormed

def statementsAreWellFormed : List Statement → Bool
  | [] => true
  | s :: ss => s.isWellFormed && statementsAreWellFormed ss

def Block.isWellFormed : Block → Bool
  | .mk ss _ => statementsAreWellFormed ss

end

def Program.isWellFormed (p : Program) : Bool := statementsAreWellFormed p.statements

end Monkey
