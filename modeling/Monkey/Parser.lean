import Monkey.Cursor
import Monkey.ParseError
import Monkey.Routine
import Monkey.Syntax

namespace Monkey

/-- Binding strengths, weakest first. -/
inductive Precedence where
  | lowest | equality | comparison | sum | product | unary | call
  deriving DecidableEq, Inhabited

namespace Precedence

def rank : Precedence → Nat
  | .lowest => 0
  | .equality => 1
  | .comparison => 2
  | .sum => 3
  | .product => 4
  | .unary => 5
  | .call => 6

instance : LT Precedence := ⟨fun p q => p.rank < q.rank⟩

instance (p q : Precedence) : Decidable (p < q) := inferInstanceAs (Decidable (p.rank < q.rank))

end Precedence

def BinaryOp.precedence : BinaryOp → Precedence
  | .eq | .notEq => .equality
  | .lt | .gt => .comparison
  | .add | .sub => .sum
  | .mul | .div => .product

/-- How an expression can go on after an operand. -/
inductive Continuation where
  | binary (op : BinaryOp)
  | call
  | index
  deriving DecidableEq

namespace Continuation

def ofKind? : TokenKind → Option Continuation
  | .eq => some (.binary .eq)
  | .notEq => some (.binary .notEq)
  | .lt => some (.binary .lt)
  | .gt => some (.binary .gt)
  | .plus => some (.binary .add)
  | .minus => some (.binary .sub)
  | .asterisk => some (.binary .mul)
  | .slash => some (.binary .div)
  | .lparen => some .call
  | .lbracket => some .index
  | _ => none

def precedence : Continuation → Precedence
  | .binary op => op.precedence
  | .call | .index => .call

end Continuation

/-- The value of a row of decimal digits. -/
def digitsValue (digits : List Char) : Nat :=
  digits.foldl (fun n c => 10 * n + (c.toNat - '0'.toNat)) 0

namespace Parser

/-- What a production is asked for. -/
inductive Goal where
  | statement
  /-- The statements up to the end of input, or also to a closing brace. -/
  | statements (inBlock : Bool)
  /-- An expression of which the operators bind more tightly than `above`. -/
  | expression (above : Precedence)
  /-- What an expression grows to that starts with the operand `left`. -/
  | continued (above : Precedence) (left : Expr)
  /-- The items of a list after the first. -/
  | moreExpressions
  | morePairs
  | moreParameters

abbrev Goal.Result : Goal → Type
  | .statement => Statement
  | .statements _ => List Statement
  | .expression _ | .continued _ _ => Expr
  | .moreExpressions => List Expr
  | .morePairs => List (Expr × Expr)
  | .moreParameters => List Identifier

structure State where
  cursor : Cursor
  errors : Array ParseError := #[]
  /-- The number of function literals made so far. -/
  literals : Nat := 0

/-- A production was given up; the state's errors say why. -/
structure GivenUp where
  deriving DecidableEq, Inhabited

end Parser

/-- A production: it reads on in the state, and yields a node or gives up. -/
abbrev Parser (α : Type) := Routine Parser.Goal.Result Parser.State Parser.GivenUp α

namespace Parser

def current : Parser Token := do return (← Routine.get).cursor.current

def peek : Parser Token := do return (← Routine.get).cursor.peek

def peekKind : Parser TokenKind := do return (← peek).kind

def advance : Parser Unit := Routine.modify fun s => { s with cursor := s.cursor.advance }

/-- Gives up for the reason `error`. -/
def fail {α : Type} (error : ParseError) : Parser α := do
  Routine.modify fun s => { s with errors := s.errors.push error }
  Routine.stop {}

/-- Moves on to the next token, which has to be of the kind. -/
def expectPeek (expected : TokenKind) : Parser Unit := do
  let token ← peek
  if token.kind = expected then advance else fail (.unexpectedToken expected token.kind token.span)

def skipSemicolon : Parser Unit := do
  if (← peekKind) = .semicolon then advance

/-- The span from `start` to the end of the current token. -/
def spanFrom (start : Span) : Parser Span := do return start.merge (← current).span

/-- A number for a new function literal. -/
def freshLiteral : Parser Nat :=
  Routine.modifyGet fun s => (s.literals, { s with literals := s.literals + 1 })

/-- An expression with all operators that follow. -/
def expression : Parser Expr := Routine.call (Goal.expression .lowest)

def tighter (above : Precedence) : Parser Expr := Routine.call (Goal.expression above)

def continued (above : Precedence) (left : Expr) : Parser Expr := Routine.call (Goal.continued above left)

def statement : Parser Statement := Routine.call Goal.statement

def statements (inBlock : Bool) : Parser (List Statement) := Routine.call (Goal.statements inBlock)

def moreExpressions : Parser (List Expr) := Routine.call Goal.moreExpressions

def morePairs : Parser (List (Expr × Expr)) := Routine.call Goal.morePairs

def moreParameters : Parser (List Identifier) := Routine.call Goal.moreParameters

/-- The rest of a list after an item: nothing, or a comma, an item and the rest after that. -/
def moreItems {α : Type} (item : Parser α) (more : Parser (List α)) : Parser (List α) := do
  if (← peekKind) = .comma then
    advance
    advance
    let first ← item
    return first :: (← more)
  else return []

/-- A list in brackets, starting on the opening one. -/
def bracketed {α : Type} (closing : TokenKind) (item : Parser α) (more : Parser (List α)) :
    Parser (List α) := do
  if (← peekKind) = closing then
    advance
    return []
  else
    advance
    let first ← item
    let rest ← more
    expectPeek closing
    return first :: rest

def expressionList (closing : TokenKind) : Parser (List Expr) := bracketed closing expression moreExpressions

def parameter : Parser Identifier := do
  let token ← current
  if token.kind = .ident then return ⟨token.literal, token.span⟩
  else fail (.unexpectedToken .ident token.kind token.span)

def pair : Parser (Expr × Expr) := do
  let key ← expression
  expectPeek .colon
  advance
  return (key, ← expression)

/-- Statements in braces, starting on the opening one. The end of input closes a block as well. -/
def block : Parser Block := do
  let start := (← current).span
  advance
  let ss ← statements true
  return .mk ss (← spanFrom start)

def integer : Parser Expr := do
  let token ← current
  let n := digitsValue token.literal.toList
  if n ≤ Int64.maxValue.toInt.toNat then return .int (.ofNat n) token.span
  else fail (.integerTooLarge token.literal token.span)

def unary (op : UnaryOp) : Parser Expr := do
  let start := (← current).span
  advance
  let operand ← tighter .unary
  return .unary op operand (← spanFrom start)

/-- An expression in parentheses, which leave no trace in the tree. -/
def grouped : Parser Expr := do
  advance
  let e ← expression
  expectPeek .rparen
  return e

/-- The block after `else`, if that comes next. -/
def alternative : Parser (Option Block) := do
  if (← peekKind) = .elseWord then
    advance
    expectPeek .lbrace
    return some (← block)
  else return none

def conditional : Parser Expr := do
  let start := (← current).span
  expectPeek .lparen
  advance
  let condition ← expression
  expectPeek .rparen
  expectPeek .lbrace
  let consequence ← block
  let otherwise ← alternative
  return .cond condition consequence otherwise (← spanFrom start)

def function : Parser Expr := do
  let start := (← current).span
  expectPeek .lparen
  let parameters ← bracketed .rparen parameter moreParameters
  expectPeek .lbrace
  let body ← block
  let span ← spanFrom start
  return .function parameters body ⟨span, ← freshLiteral⟩

def array : Parser Expr := do
  let start := (← current).span
  let elements ← expressionList .rbracket
  return .array elements (← spanFrom start)

def hash : Parser Expr := do
  let start := (← current).span
  let pairs ← bracketed .rbrace pair morePairs
  return .hash pairs (← spanFrom start)

/-- An expression up to its first operator that is not a sign in front. -/
def operand : Parser Expr := do
  let token ← current
  match token.kind with
  | .ident => return .name ⟨token.literal, token.span⟩
  | .int => integer
  | .str => return .str token.literal token.span
  | .trueWord => return .bool true token.span
  | .falseWord => return .bool false token.span
  | .bang => unary .not
  | .minus => unary .neg
  | .lparen => grouped
  | .ifWord => conditional
  | .fnWord => function
  | .lbracket => array
  | .lbrace => hash
  | kind => fail (.noExpression kind token.span)

/-- Takes one operator, call or index to the expression `left`, starting on its first token. -/
def extend (left : Expr) : Continuation → Parser Expr
  | .binary op => do
    advance
    let right ← tighter op.precedence
    return .binary op left right (left.span.merge right.span)
  | .call => do
    let arguments ← expressionList .rparen
    return .call left arguments (← spanFrom left.span)
  | .index => do
    advance
    let i ← expression
    expectPeek .rbracket
    return .index left i (← spanFrom left.span)

def letStatement : Parser Statement := do
  let start := (← current).span
  expectPeek .ident
  let token ← current
  expectPeek .assign
  advance
  let value ← expression
  skipSemicolon
  return .bind ⟨token.literal, token.span⟩ value (← spanFrom start)

/-- The value that is returned, if the statement does not end before it. -/
def returnValue : Parser (Option Expr) := do
  match ← peekKind with
  | .semicolon | .rbrace | .eof => return none
  | _ =>
    advance
    return some (← expression)

def returnStatement : Parser Statement := do
  let start := (← current).span
  let value ← returnValue
  skipSemicolon
  return .ret value (← spanFrom start)

/-- The production of each goal. It starts with the cursor on its first token and ends with it on its last one, or on
the end token if that cuts it off. -/
def produce : (goal : Goal) → Parser goal.Result
  | .statement => do
    match (← current).kind with
    | .letWord => letStatement
    | .returnWord => returnStatement
    | _ =>
      let e ← expression
      skipSemicolon
      return .expr e
  | .statements inBlock => do
    let kind := (← current).kind
    if kind = .eof ∨ (inBlock ∧ kind = .rbrace) then return []
    else
      let read ← statement.attempt
      advance
      let rest ← statements inBlock
      match read with
      | .ok s => return s :: rest
      | .error _ => return rest
  | .expression above => do
    let left ← operand
    continued above left
  | .continued above left => do
    match Continuation.ofKind? (← peekKind) with
    | some c =>
      if above < c.precedence then
        advance
        continued above (← extend left c)
      else return left
    | none => return left
  | .moreExpressions => moreItems expression moreExpressions
  | .morePairs => moreItems pair morePairs
  | .moreParameters => moreItems parameter moreParameters

end Parser

/-- What was read of a source text, and what is wrong with it. With errors the program may lack statements. -/
structure Parsed where
  program : Program
  errors : List ParseError

/-- Enough calls for a text of this many bytes: no token takes part in as many as eight. -/
def parseBudget (bytes : Nat) : Nat := 8 * (bytes + 2)

/-- Reads a source text. -/
def parse (source : String) : Parsed :=
  let start : Parser.State := { cursor := .ofString source }
  match CallTree.run Parser.produce (parseBudget source.utf8ByteSize) (Parser.statements false start) with
  | some (.ok ss, s) => ⟨⟨ss⟩, s.errors.toList⟩
  | some (.error _, s) => ⟨⟨[]⟩, s.errors.toList⟩
  | none => ⟨⟨[]⟩, []⟩

end Monkey
