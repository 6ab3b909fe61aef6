import Monkey.Lexer

namespace Monkey

structure Cursor where
  lexer : Lexer
  current : Token
  peek : Token

namespace Cursor

def ofLexer (l : Lexer) : Cursor :=
  let (current, l) := l.next
  let (peek, l) := l.next
  ⟨l, current, peek⟩

def ofString (source : String) : Cursor := ofLexer (.ofString source)

/-- Moves on by one token. At the end of the text both tokens are the end token and stay so. -/
def advance (c : Cursor) : Cursor :=
  let (token, l) := c.lexer.next
  ⟨l, c.peek, token⟩

end Cursor

end Monkey
