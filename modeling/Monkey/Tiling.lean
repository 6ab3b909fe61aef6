import Monkey.Lexer

namespace Monkey

namespace TokenKind

/-- The kinds of tokens that are signs. Each is written as its name. -/
def signs : List TokenKind :=
  [.assign, .plus, .minus, .bang, .asterisk, .slash, .lt, .gt, .eq, .notEq, .comma, .semicolon, .colon, .lparen,
    .rparen, .lbrace, .rbrace, .lbracket, .rbracket]

/-- A rule accepts the text as a token of the kind. -/
inductive Matches : TokenKind → List Char → Prop
  | sign {kind : TokenKind} : kind ∈ signs → Matches kind kind.name.toList
  | word {c : Char} {cs : List Char} :
      isWordStart c → (∀ d ∈ cs, isWordPart d) → Matches (ofWord (String.ofList (c :: cs))) (c :: cs)
  | digits {c : Char} {cs : List Char} : c.isDigit → (∀ d ∈ cs, d.isDigit) → Matches .int (c :: cs)
  | closed {cs : List Char} : '"' ∉ cs → Matches .str ('"' :: (cs ++ ['"']))
  | unclosed {cs : List Char} : '"' ∉ cs → Matches .str ('"' :: cs)

/-- Of the texts that `text ++ rest` starts with and that a rule accepts, `text` is the longest, and only as a
token of the kind. -/
def Longest (kind : TokenKind) (text rest : List Char) : Prop :=
  Matches kind text ∧ ∀ kind' text', text' <+: text ++ rest → Matches kind' text' →
    text'.length < text.length ∨ text' = text ∧ kind' = kind

/-- No token starts with the character, and it is none of those that stand between tokens. -/
def StartsNone (c : Char) : Prop := isBlank c = false ∧ ∀ kind cs, ¬ Matches kind (c :: cs)

end TokenKind

/-- The token stands for `text` when `rest` comes after it. -/
structure Token.Fits (t : Token) (text rest : List Char) : Prop where
  nonempty : text ≠ []
  kind_ne_eof : t.kind ≠ .eof
  literal :
    if t.kind = .str then
      '"' ∉ t.literal.toList ∧
        (text = '"' :: (t.literal.toList ++ ['"']) ∨ text = '"' :: t.literal.toList ∧ rest = [])
    else text = t.literal.toList
  longest : t.kind.Longest text rest ∨ t.kind = .illegal ∧ ∃ c, text = [c] ∧ TokenKind.StartsNone c

/-- The characters from an offset on are made of blanks and of the texts of tokens. -/
inductive Tiled : Nat → List Char → List Token → List (List Char) → Prop
  | nil {offset : Nat} {blanks : List Char} : (∀ c ∈ blanks, isBlank c) → Tiled offset blanks [] []
  | cons {offset start : Nat} {blanks text rest : List Char} {t : Token} {ts : List Token}
      {texts : List (List Char)} :
      (∀ c ∈ blanks, isBlank c) → start = offset + byteSize blanks → t.Fits text rest →
        t.span = .ofRange start (start + byteSize text) → Tiled (start + byteSize text) rest ts texts →
          Tiled offset (blanks ++ (text ++ rest)) (t :: ts) (text :: texts)

theorem Lexeme.scan_rest_length_lt {c : Char} {cs before : List Char} (h : before.dropWhile isBlank = c :: cs) :
    (scan c cs).rest.length < before.length := by
  have skipped : (before.dropWhile isBlank).length ≤ before.length := (List.dropWhile_sublist _).length_le
  have := scan_rest_length_le c cs
  rw [h, List.length_cons] at skipped
  omega

/-- What is scanned from the text on, token by token. -/
def lexemes (cs : List Char) : List Lexeme :=
  match _h : cs.dropWhile isBlank with
  | [] => []
  | c :: cs => Lexeme.scan c cs :: lexemes (Lexeme.scan c cs).rest
  termination_by cs.length
  decreasing_by exact Lexeme.scan_rest_length_lt _h

/-- A string that no quote closes, so that the text ends with it. -/
def Lexeme.IsCut (x : Lexeme) : Prop := x.kind = .str ∧ x.text = '"' :: x.literal

instance (x : Lexeme) : Decidable x.IsCut := inferInstanceAs (Decidable (_ ∧ _))

/-- The texts of the tokens of a source text. Those of strings have their quotes. -/
def tokenTexts (source : String) : List String := (lexemes source.toList).map (String.ofList ·.text)

end Monkey
