import Monkey.Session
import Monkey.Syntax.Spans

namespace Monkey

/-- The span of the error moved on by a number of bytes. -/
def ParseError.shift (bytes : Nat) : ParseError → ParseError
  | .unexpectedToken expected found s => .unexpectedToken expected found (s.shift bytes)
  | .noExpression kind s => .noExpression kind (s.shift bytes)
  | .integerTooLarge literal s => .integerTooLarge literal (s.shift bytes)

theorem Span.shift_shift (bytes bytes' : Nat) (s : Span) : (s.shift bytes).shift bytes' = s.shift (bytes' + bytes) := by
  simp only [shift, Nat.add_assoc, Nat.add_comm bytes]

theorem ParseError.shift_shift (bytes bytes' : Nat) (e : ParseError) :
    (e.shift bytes).shift bytes' = e.shift (bytes' + bytes) := by
  cases e <;> simp only [shift, Span.shift_shift]

theorem ParseError.shift_zero (e : ParseError) : e.shift 0 = e := by
  cases e <;> rfl

/-- The text is read without errors, it has as many closing braces as opening ones, and its last token is a
semicolon. -/
structure Complete (text : String) : Prop where
  clean : (parse text).errors = []
  ends : ∃ t ∈ (lex text).dropLast.getLast?, t.kind = .semicolon
  balanced : (lex text).countP (·.kind = .lbrace) = (lex text).countP (·.kind = .rbrace)

end Monkey
