import Monkey.Token

namespace Monkey

inductive ParseError where
  /-- Only a token of kind `expected` can stand at the span, where one of kind `found` does. -/
  | unexpectedToken (expected found : TokenKind) (span : Span)
  /-- No expression starts with a token of this kind. -/
  | noExpression (kind : TokenKind) (span : Span)
  /-- The literal is beyond the largest integer. -/
  | integerTooLarge (literal : String) (span : Span)
  deriving DecidableEq, Inhabited

namespace ParseError

/-- The span of the token that is wrong. -/
def span : ParseError → Span
  | .unexpectedToken _ _ s | .noExpression _ s | .integerTooLarge _ s => s

def message : ParseError → String
  | .unexpectedToken expected found _ =>
    s!"expected next token to be {expected.name}, got {found.name} instead"
  | .noExpression kind _ => s!"no parse rule for token {kind.name}"
  | .integerTooLarge literal _ => s!"could not parse {literal} as integer"

end ParseError

end Monkey
