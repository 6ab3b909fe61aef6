import Monkey.Token

namespace Monkey

/-- The characters between tokens. -/
def isBlank (c : Char) : Bool := c == ' ' || c == '\t' || c == '\r' || c == '\n'

/-- An ASCII letter or an underscore. -/
def isWordStart (c : Char) : Bool := c.isAlpha || c == '_'

def isWordPart (c : Char) : Bool := isWordStart c || c.isDigit

/-- The number of bytes that the characters take in UTF-8. -/
def byteSize (cs : List Char) : Nat := cs.foldr (fun c size => c.utf8Size + size) 0

@[simp] theorem byteSize_nil : byteSize [] = 0 := rfl

@[simp] theorem byteSize_cons (c : Char) (cs : List Char) : byteSize (c :: cs) = c.utf8Size + byteSize cs := rfl

@[simp] theorem byteSize_append (cs ds : List Char) : byteSize (cs ++ ds) = byteSize cs + byteSize ds := by
  induction cs with
  | nil => simp
  | cons c cs ih => simp [ih, Nat.add_assoc]

theorem length_le_byteSize (cs : List Char) : cs.length ≤ byteSize cs := by
  induction cs with
  | nil => exact Nat.le_refl 0
  | cons c cs ih =>
    have positive := c.utf8Size_pos
    simp only [List.length_cons, byteSize_cons]
    omega

theorem byteSize_toList (text : String) : byteSize text.toList = text.utf8ByteSize := by
  have encoded (cs : List Char) : byteSize cs = (String.ofList cs).utf8ByteSize := by
    induction cs with
    | nil => rfl
    | cons c cs ih =>
      rw [String.ofList_cons, String.utf8ByteSize_append, String.utf8ByteSize_singleton, byteSize_cons, ih]
  rw [encoded, String.ofList_toList]

theorem byteSize_of_blank {cs : List Char} (blank : ∀ c ∈ cs, isBlank c) : byteSize cs = cs.length := by
  have single (c : Char) (h : isBlank c) : c.utf8Size = 1 := by
    simp only [isBlank, Bool.or_eq_true, beq_iff_eq] at h
    rcases h with ((rfl | rfl) | rfl) | rfl
    all_goals rfl
  induction cs with
  | nil => rfl
  | cons c cs ih =>
    obtain ⟨first, others⟩ := List.forall_mem_cons.1 blank
    rw [byteSize_cons, single c first, ih others, List.length_cons, Nat.add_comm]

/-- The kind of a token that is one sign. -/
def signKind? : Char → Option TokenKind
  | '=' => some .assign
  | '+' => some .plus
  | '-' => some .minus
  | '!' => some .bang
  | '*' => some .asterisk
  | '/' => some .slash
  | '<' => some .lt
  | '>' => some .gt
  | ',' => some .comma
  | ';' => some .semicolon
  | ':' => some .colon
  | '(' => some .lparen
  | ')' => some .rparen
  | '{' => some .lbrace
  | '}' => some .rbrace
  | '[' => some .lbracket
  | ']' => some .rbracket
  | _ => none

/-- One token's kind, the characters it takes, and those it leaves. -/
structure Lexeme where
  kind : TokenKind
  text : List Char
  rest : List Char

namespace Lexeme

/-- A quote, all up to the next quote, and that quote unless the text ends first. -/
def quoted (cs : List Char) : Lexeme :=
  let body := cs.takeWhile (· != '"')
  match cs.dropWhile (· != '"') with
  | [] => ⟨.str, '"' :: body, []⟩
  | close :: rest => ⟨.str, '"' :: (body ++ [close]), rest⟩

def word (c : Char) (cs : List Char) : Lexeme :=
  let text := c :: cs.takeWhile isWordPart
  ⟨.ofWord (String.ofList text), text, cs.dropWhile isWordPart⟩

def digits (c : Char) (cs : List Char) : Lexeme :=
  ⟨.int, c :: cs.takeWhile Char.isDigit, cs.dropWhile Char.isDigit⟩

/-- The longest token at the front of `c :: cs`. A character that starts none is illegal by itself. -/
def scan (c : Char) (cs : List Char) : Lexeme :=
  if c == '"' then quoted cs
  else if isWordStart c then word c cs
  else if c.isDigit then digits c cs
  else match c, cs with
    | '=', '=' :: rest => ⟨.eq, ['=', '='], rest⟩
    | '!', '=' :: rest => ⟨.notEq, ['!', '='], rest⟩
    | _, _ => ⟨(signKind? c).getD .illegal, [c], cs⟩

/-- The text of the token without the quotes of a string. -/
def literal (x : Lexeme) : List Char :=
  match x.kind with
  | .str => (x.text.drop 1).takeWhile (· != '"')
  | _ => x.text

def byteLength (x : Lexeme) : Nat := byteSize x.text

theorem scan_text_append_rest (c : Char) (cs : List Char) : (scan c cs).text ++ (scan c cs).rest = c :: cs := by
  unfold scan
  split
  · next quote =>
    simp only [beq_iff_eq] at quote
    subst quote
    have parts : cs.takeWhile (· != '"') ++ cs.dropWhile (· != '"') = cs := List.takeWhile_append_dropWhile
    unfold quoted
    split
    · next eq => simpa [eq] using parts
    · next close rest eq => simpa [eq] using parts
  · split
    · simp [word]
    · split
      · simp [digits]
      · split <;> simp

theorem scan_rest_length_le (c : Char) (cs : List Char) : (scan c cs).rest.length ≤ cs.length := by
  have parts := congrArg List.length (scan_text_append_rest c cs)
  have nonempty : (scan c cs).text ≠ [] := by
    unfold scan quoted word digits
    repeat' split
    all_goals simp
  have := List.length_pos_iff.2 nonempty
  simp only [List.length_append, List.length_cons] at parts
  omega

end Lexeme

/-- The text that is left, and its offset in the whole. -/
structure Lexer where
  rest : List Char
  offset : Nat := 0
  /-- Whether `pull` has given the end token. -/
  exhausted : Bool := false

namespace Lexer

def ofString (source : String) : Lexer where
  rest := source.toList

def skipBlanks (l : Lexer) : Lexer :=
  { l with
    rest := l.rest.dropWhile isBlank
    offset := l.offset + (l.rest.takeWhile isBlank).length }

/-- The token at the front of the text. -/
def scan (l : Lexer) : Token × Lexer :=
  match l.rest with
  | [] => (.eof (min l.offset Span.maxOffset), l)
  | c :: cs =>
    let x := Lexeme.scan c cs
    let stop := l.offset + x.byteLength
    (⟨x.kind, String.ofList x.literal, .ofRange l.offset stop⟩, { l with rest := x.rest, offset := stop })

/-- The next token, the end token for ever once the text is used up. -/
def next (l : Lexer) : Token × Lexer := l.skipBlanks.scan

/-- The next token, the end token once only. An end token given by `next` does not count. -/
def pull (l : Lexer) : Option Token × Lexer :=
  if l.exhausted then (none, l)
  else
    let (token, l) := l.next
    (some token, { l with exhausted := token.kind == .eof })

theorem next_rest_length_lt {l : Lexer} (more : l.next.1.kind ≠ .eof) :
    l.next.2.rest.length < l.rest.length := by
  have skipped : l.skipBlanks.rest.length ≤ l.rest.length := (List.dropWhile_sublist _).length_le
  unfold next scan at more ⊢
  split
  · next eq => simp [eq, Token.eof] at more
  · next c cs eq =>
    have := Lexeme.scan_rest_length_le c cs
    simp only [eq, List.length_cons] at skipped ⊢
    omega

/-- Adds all tokens from here on, ending with one end token. -/
def collect (tokens : Array Token) (l : Lexer) : Array Token :=
  if _h : l.next.1.kind = .eof then tokens.push l.next.1 else collect (tokens.push l.next.1) l.next.2
  termination_by l.rest.length
  decreasing_by exact next_rest_length_lt _h

end Lexer

/-- All tokens of a text. The last one, and no other, is the end token. -/
def lex (source : String) : List Token := ((Lexer.ofString source).collect #[]).toList

end Monkey
