import Monkey.Parser

namespace Monkey

/-- How an expression begins. -/
inductive PrefixRule where
  | name | integer | string | truth | sign | grouped | conditional | function | array | hash

/-- How an expression goes on. -/
inductive InfixRule where
  | operator | call | index

def prefixRule? : TokenKind → Option PrefixRule
  | .ident => some .name
  | .int => some .integer
  | .str => some .string
  | .trueWord | .falseWord => some .truth
  | .bang | .minus => some .sign
  | .lparen => some .grouped
  | .ifWord => some .conditional
  | .fnWord => some .function
  | .lbracket => some .array
  | .lbrace => some .hash
  | _ => none

def infixRule? : TokenKind → Option (Precedence × InfixRule)
  | .eq | .notEq => some (.equality, .operator)
  | .lt | .gt => some (.comparison, .operator)
  | .plus | .minus => some (.sum, .operator)
  | .asterisk | .slash => some (.product, .operator)
  | .lparen => some (.call, .call)
  | .lbracket => some (.call, .index)
  | _ => none

def UnaryOp.ofKind? : TokenKind → Option UnaryOp
  | .bang => some .not
  | .minus => some .neg
  | _ => none

def BinaryOp.ofKind? : TokenKind → Option BinaryOp
  | .plus => some .add
  | .minus => some .sub
  | .asterisk => some .mul
  | .slash => some .div
  | .lt => some .lt
  | .gt => some .gt
  | .eq => some .eq
  | .notEq => some .notEq
  | _ => none

/-- How strongly the token binds what goes before it; a token that no expression goes on with binds most weakly. -/
def TokenKind.precedence (kind : TokenKind) : Precedence := (infixRule? kind).elim .lowest (·.1)

namespace Parser

/-- What is done when a table has no entry: for a sign in front, for an operator, and for a token that the expression
`left` is to go on with. -/
structure WaysOut where
  noSign : Parser Expr
  noOperator : Parser Expr
  noRule (left : Expr) : Parser Expr

def operandByTable (out : WaysOut) : Parser Expr := do
  let token ← current
  match prefixRule? token.kind with
  | some .name => return .name ⟨token.literal, token.span⟩
  | some .integer => integer
  | some .string => return .str token.literal token.span
  | some .truth => return .bool (token.kind == .trueWord) token.span
  | some .sign =>
    match UnaryOp.ofKind? token.kind with
    | some op => unary op
    | none => out.noSign
  | some .grouped => grouped
  | some .conditional => conditional
  | some .function => function
  | some .array => array
  | some .hash => hash
  | none => fail (.noExpression token.kind token.span)

/-- Takes one operator, call or index to the expression `left`, starting on its first token. -/
def extendByTable (out : WaysOut) (left : Expr) : InfixRule → Parser Expr
  | .operator => do
    let kind := (← current).kind
    match BinaryOp.ofKind? kind with
    | some op =>
      advance
      let right ← tighter kind.precedence
      return .binary op left right (left.span.merge right.span)
    | none => out.noOperator
  | .call => extend left .call
  | .index => extend left .index

/-- Nothing goes on after a semicolon, however weakly what goes before it binds. -/
def continueByTable (out : WaysOut) (above : Precedence) (left : Expr) : Parser Expr := do
  let kind ← peekKind
  if kind ≠ .semicolon ∧ above < kind.precedence then
    match infixRule? kind with
    | some (_, rule) =>
      advance
      continued above (← extendByTable out left rule)
    | none => out.noRule left
  else return left

/-- The production of each goal, with the tables looked up on the way. -/
def produceByTables (out : WaysOut) : (goal : Goal) → Parser goal.Result
  | .expression above => do
    let left ← operandByTable out
    continued above left
  | .continued above left => continueByTable out above left
  | goal => produce goal

end Parser

end Monkey
