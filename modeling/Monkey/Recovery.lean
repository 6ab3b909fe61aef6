import Mathlib.Data.List.Forall2
import Monkey.Parser
import Monkey.Trace

namespace Monkey

namespace Cursor

/-- The two tokens that are in view. -/
inductive Slot where
  | current | peek
  deriving DecidableEq

def token (c : Cursor) : Slot → Token
  | .current => c.current
  | .peek => c.peek

/-- The cursor `n` tokens further on. -/
def advanced (c : Cursor) : Nat → Cursor
  | 0 => c
  | n + 1 => (c.advanced n).advance

end Cursor

/-- The error sits on the token and says of which kind it is, or how it reads. -/
inductive ParseError.About (t : Token) : ParseError → Prop
  | unexpected (expected : TokenKind) : About t (.unexpectedToken expected t.kind t.span)
  | noExpression : About t (.noExpression t.kind t.span)
  | tooLarge : About t (.integerTooLarge t.literal t.span)

/-- The words of the error have the kind of the token in them, or how it reads. -/
def ParseError.Tells (e : ParseError) (t : Token) : Prop :=
  (∃ expected : TokenKind, e.message = s!"expected next token to be {expected.name}, got {t.kind.name} instead") ∨
    e.message = s!"no parse rule for token {t.kind.name}" ∨ e.message = s!"could not parse {t.literal} as integer"

namespace Parser

/-- The calls of a run of the parser, in the order in which they ended. -/
abbrev Trace := List (CallTree.Ended Goal.Result State GivenUp)

/-- The state in which a statement was given up, if that is how the call ended. -/
def dropped? : CallTree.Ended Goal.Result State GivenUp → Option State
  | ⟨.statement, _, .error _, t⟩ => some t
  | _ => none

/-- The states in which statements were given up, in the program or in a block. -/
def dropped (trace : Trace) : List State := trace.filterMap dropped?

/-- The errors that come with an outcome: whoever gives up says why. -/
def ownErrors {α : Type} : Except GivenUp α → Nat
  | .ok _ => 0
  | .error _ => 1

/-- Each of the errors was the last one when the statement of the same place in the row was given up. -/
def ReportEach (states : List State) (errors : List ParseError) : Prop :=
  List.Forall₂ (fun u e => u.errors.toList.getLast? = some e) states errors

/-- Started in `s`, the production comes to an end. It adds errors to those found so far and leaves these as they are:
one for each statement that is dropped on the way, and one more if it gives up itself. -/
structure ReportsDrops {α : Type} (m : Parser α) (s : State) : Prop where
  ends : ∃ trace r t, CallTree.Traces produce trace (m s) r t
  appends : ∀ {trace r t}, CallTree.Traces produce trace (m s) r t →
    ∃ ofDropped own, t.errors.toList = s.errors.toList ++ ofDropped ++ own ∧
      ReportEach (dropped trace) ofDropped ∧ own.length = ownErrors r

/-- An error, the state in which the statement was given up that it is of, and the token that it was found on: its slot
then, and its index in the text. -/
structure Report where
  error : ParseError
  state : State
  slot : Cursor.Slot
  index : Nat

/-- The token of the report is that of the text with the index, and the error is about it. -/
structure Report.Stands (source : String) (x : Report) : Prop where
  token : (lex source)[x.index]? = some (x.state.cursor.token x.slot)
  span : x.error.span = (x.state.cursor.token x.slot).span
  tells : x.error.Tells (x.state.cursor.token x.slot)
  last : x.state.errors.toList.getLast? = some x.error

/-- The productions, those of the goals and those that they are made of. -/
inductive Production : {α : Type} → Parser α → Prop
  | goal (goal : Goal) : Production (produce goal)
  | letStatement : Production letStatement
  | returnStatement : Production returnStatement
  | block : Production block
  | operand : Production operand
  | integer : Production integer
  | unary (op : UnaryOp) : Production (unary op)
  | grouped : Production grouped
  | conditional : Production conditional
  | alternative : Production alternative
  | function : Production function
  | parameter : Production parameter
  | parameters : Production (bracketed .rparen parameter moreParameters)
  | array : Production array
  | hash : Production hash
  | pair : Production pair
  | pairs : Production (bracketed .rbrace pair morePairs)
  | expressionList (closing : TokenKind) : Production (expressionList closing)
  | extend (left : Expr) (c : Continuation) : Production (extend left c)

end Parser

end Monkey
