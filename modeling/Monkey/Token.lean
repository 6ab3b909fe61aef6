import Monkey.Span

namespace Monkey

inductive TokenKind where
  | illegal | eof
  | ident | int | str
  | assign | plus | minus | bang | asterisk | slash | lt | gt | eq | notEq
  | comma | semicolon | colon | lparen | rparen | lbrace | rbrace | lbracket | rbracket
  | fnWord | letWord | trueWord | falseWord | ifWord | elseWord | returnWord
  deriving DecidableEq, Inhabited

namespace TokenKind

/-- The name by which parse errors call the kind: its sign, or a word in capitals. -/
def name : TokenKind → String
  | .illegal => "ILLEGAL"
  | .eof => "EOF"
  | .ident => "IDENT"
  | .int => "INT"
  | .str => "STRING"
  | .assign => "="
  | .plus => "+"
  | .minus => "-"
  | .bang => "!"
  | .asterisk => "*"
  | .slash => "/"
  | .lt => "<"
  | .gt => ">"
  | .eq => "=="
  | .notEq => "!="
  | .comma => ","
  | .semicolon => ";"
  | .colon => ":"
  | .lparen => "("
  | .rparen => ")"
  | .lbrace => "\x7b"
  | .rbrace => "\x7d"
  | .lbracket => "["
  | .rbracket => "]"
  | .fnWord => "FUNCTION"
  | .letWord => "LET"
  | .trueWord => "TRUE"
  | .falseWord => "FALSE"
  | .ifWord => "IF"
  | .elseWord => "ELSE"
  | .returnWord => "RETURN"

/-- The name by which listings of tokens call the kind. -/
def label : TokenKind → String
  | .illegal => "Illegal"
  | .eof => "Eof"
  | .ident => "Ident"
  | .int => "Int"
  | .str => "String"
  | .assign => "Assign"
  | .plus => "Plus"
  | .minus => "Minus"
  | .bang => "Bang"
  | .asterisk => "Asterisk"
  | .slash => "Slash"
  | .lt => "Lt"
  | .gt => "Gt"
  | .eq => "Eq"
  | .notEq => "NotEq"
  | .comma => "Comma"
  | .semicolon => "Semicolon"
  | .colon => "Colon"
  | .lparen => "LParen"
  | .rparen => "RParen"
  | .lbrace => "LBrace"
  | .rbrace => "RBrace"
  | .lbracket => "LBracket"
  | .rbracket => "RBracket"
  | .fnWord => "Function"
  | .letWord => "Let"
  | .trueWord => "True"
  | .falseWord => "False"
  | .ifWord => "If"
  | .elseWord => "Else"
  | .returnWord => "Return"

/-- The words that are no identifiers. -/
def keywords : List (String × TokenKind) :=
  [("fn", .fnWord), ("let", .letWord), ("true", .trueWord), ("false", .falseWord), ("if", .ifWord), ("else", .elseWord),
    ("return", .returnWord)]

/-- The kind of a word: its keyword, or an identifier. -/
def ofWord (word : String) : TokenKind := (keywords.lookup word).getD .ident

theorem ofWord_eq_ident_or_mem (w : String) : ofWord w = .ident ∨ (w, ofWord w) ∈ keywords := by
  unfold ofWord
  cases found : keywords.lookup w with
  | none => exact .inl rfl
  | some kind =>
    obtain ⟨before, after, same, _⟩ := List.lookup_eq_some_iff.1 found
    have listed : (w, kind) ∈ keywords := by simp [same]
    exact .inr listed

/-- What is true of the kind of identifiers and of the keywords is true of every word. -/
theorem ofWord_ne (w : String) {kind : TokenKind} (ident : kind ≠ .ident) (keyword : ∀ p ∈ keywords, p.2 ≠ kind) :
    ofWord w ≠ kind := by
  rcases ofWord_eq_ident_or_mem w with same | listed
  · rw [same]
    exact ident.symm
  · exact keyword _ listed

def isKeyword (kind : TokenKind) : Bool := keywords.any (·.2 == kind)

end TokenKind

/-- A token with its text, which for a string is the part between the quotes. -/
structure Token where
  kind : TokenKind
  literal : String
  span : Span
  deriving DecidableEq, Inhabited

/-- The end of a text of `offset` bytes. -/
def Token.eof (offset : Nat) : Token := ⟨.eof, "", .point offset⟩

end Monkey
