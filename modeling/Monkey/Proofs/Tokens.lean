import Monkey.Parser

namespace Monkey

theorem all_of_mem_takeWhile {p : Char → Bool} {cs : List Char} : ∀ c ∈ cs.takeWhile p, p c :=
  List.all_eq_true.1 List.all_takeWhile

theorem Lexeme.scan_kind_ne_eof (c : Char) (cs : List Char) : (scan c cs).kind ≠ .eof := by
  have sign_ne (c : Char) : (signKind? c).getD .illegal ≠ .eof := by
    unfold signKind?
    split <;> decide
  unfold scan
  split
  · unfold quoted
    split <;> simp
  · split
    · exact TokenKind.ofWord_ne _ (by decide) (by decide)
    · split
      · simp [digits]
      · split
        · simp
        · simp
        · exact sign_ne _

namespace Lexer

theorem next_kind_eq_eof_iff {l : Lexer} : l.next.1.kind = .eof ↔ l.rest.dropWhile isBlank = [] := by
  have skipped : l.skipBlanks.rest = l.rest.dropWhile isBlank := rfl
  rw [← skipped, next, scan]
  split
  · next eq => simp [eq, Token.eof]
  · next c cs eq => simp [eq, Lexeme.scan_kind_ne_eof]

/-- The next token is the one that is scanned after the blanks. -/
theorem next_of_visible {l : Lexer} {c : Char} {cs : List Char} (h : l.rest.dropWhile isBlank = c :: cs) :
    l.next =
      (⟨(Lexeme.scan c cs).kind, String.ofList (Lexeme.scan c cs).literal,
        .ofRange l.skipBlanks.offset (l.skipBlanks.offset + (Lexeme.scan c cs).byteLength)⟩,
        { l with
          rest := (Lexeme.scan c cs).rest
          offset := l.skipBlanks.offset + (Lexeme.scan c cs).byteLength }) := by
  have here : l.skipBlanks.rest = c :: cs := h
  rw [next, scan, here]
  rfl

/-- Nothing but blanks is left before the end token. -/
theorem next_of_eof {l : Lexer} (h : l.next.1.kind = .eof) :
    l.skipBlanks.rest = [] ∧ l.next = (.eof (min l.skipBlanks.offset Span.maxOffset), l.skipBlanks) := by
  have empty : l.skipBlanks.rest = [] := next_kind_eq_eof_iff.1 h
  refine ⟨empty, ?_⟩
  rw [next, scan]
  split
  · rfl
  · next eq => simp [empty] at eq

theorem isBlank_of_eof {l : Lexer} (h : l.next.1.kind = .eof) : ∀ c ∈ l.rest, isBlank c := by
  have parts := List.takeWhile_append_dropWhile (p := isBlank) (l := l.rest)
  rw [next_kind_eq_eof_iff.1 h, List.append_nil] at parts
  rw [← parts]
  exact all_of_mem_takeWhile

/-- At the end of the text the lexer stays where it is. -/
theorem next_next_of_eof {l : Lexer} (h : l.next.1.kind = .eof) : l.next.2.next = l.next := by
  obtain ⟨empty, stay⟩ := next_of_eof h
  have skipped : l.skipBlanks.skipBlanks = l.skipBlanks := by
    rw [skipBlanks, empty]
    simp only [List.dropWhile_nil, List.takeWhile_nil, List.length_nil, Nat.add_zero]
    rw [← empty]
  rw [stay, next, skipped]
  exact stay

/-- The tokens from here on, without the end token. -/
def tokens (l : Lexer) : List Token :=
  if _h : l.next.1.kind = .eof then [] else l.next.1 :: tokens l.next.2
  termination_by l.rest.length
  decreasing_by exact next_rest_length_lt _h

theorem tokens_of_eof {l : Lexer} (h : l.next.1.kind = .eof) : l.tokens = [] := by
  rw [tokens, dif_pos h]

theorem tokens_of_ne_eof {l : Lexer} (h : l.next.1.kind ≠ .eof) : l.tokens = l.next.1 :: l.next.2.tokens := by
  rw [tokens, dif_neg h]

theorem tokens_congr {l l' : Lexer} (h : l.next = l'.next) : l.tokens = l'.tokens := by
  by_cases eof : l.next.1.kind = .eof
  · rw [tokens_of_eof eof, tokens_of_eof (h ▸ eof)]
  · rw [tokens_of_ne_eof eof, tokens_of_ne_eof (l := l') (h ▸ eof), h]

/-- After the first token come the others. -/
theorem tokens_next (l : Lexer) : l.next.2.tokens = l.tokens.tail := by
  by_cases h : l.next.1.kind = .eof
  · rw [tokens_of_eof h, tokens_of_eof (by rw [next_next_of_eof h]; exact h)]
    rfl
  · rw [tokens_of_ne_eof h]
    rfl

theorem tokens_length_le (l : Lexer) : l.tokens.length ≤ l.rest.length := by
  fun_induction tokens l with
  | case1 l h => exact Nat.zero_le _
  | case2 l h ih =>
    have shorter := next_rest_length_lt h
    simp only [List.length_cons]
    omega

theorem offset_skipBlanks (l : Lexer) :
    l.skipBlanks.offset + byteSize l.skipBlanks.rest = l.offset + byteSize l.rest := by
  have parts : byteSize l.rest = byteSize (l.rest.takeWhile isBlank) + byteSize (l.rest.dropWhile isBlank) := by
    rw [← byteSize_append, List.takeWhile_append_dropWhile]
  rw [byteSize_of_blank all_of_mem_takeWhile] at parts
  simp only [skipBlanks]
  omega

/-- Offset and text that is left move together. -/
theorem offset_next (l : Lexer) : l.next.2.offset + byteSize l.next.2.rest = l.offset + byteSize l.rest := by
  rw [← offset_skipBlanks l, next, scan]
  split
  · rfl
  · next c cs eq =>
    have parts := congrArg byteSize (Lexeme.scan_text_append_rest c cs)
    rw [byteSize_append] at parts
    simp only [Lexeme.byteLength, eq]
    omega

/-- All tokens from here on are those before the end token, and the end token at the end of the text. -/
theorem collect_eq (l : Lexer) (found : Array Token) :
    (l.collect found).toList =
      found.toList ++ l.tokens ++ [.eof (min (l.offset + byteSize l.rest) Span.maxOffset)] := by
  fun_induction tokens l generalizing found with
  | case1 l h =>
    obtain ⟨empty, stay⟩ := next_of_eof h
    have last := offset_next l
    rw [stay, empty, byteSize_nil, Nat.add_zero] at last
    rw [collect, dif_pos h, stay, last]
    simp
  | case2 l h ih =>
    rw [collect, dif_neg h, ih, offset_next]
    simp

end Lexer

/-- The tokens of a text but the last, which is the end token. -/
theorem dropLast_lex (source : String) : (lex source).dropLast = (Lexer.ofString source).tokens := by
  simp [lex, Lexer.collect_eq]

theorem length_toList_le_utf8ByteSize (text : String) : text.toList.length ≤ text.utf8ByteSize :=
  byteSize_toList text ▸ length_le_byteSize text.toList

theorem length_tokens_ofString_le (source : String) :
    (Lexer.ofString source).tokens.length ≤ source.utf8ByteSize :=
  Nat.le_trans (Lexer.tokens_length_le _) (length_toList_le_utf8ByteSize source)

namespace Parser

namespace State

/-- The state one token further on. -/
def advance (s : State) : State := { s with cursor := s.cursor.advance }

/-- The state with one more error. -/
def fail (s : State) (error : ParseError) : State := { s with errors := s.errors.push error }

/-- The state in which one more number has been given to a function literal. -/
def countLiteral (s : State) : State := { s with literals := s.literals + 1 }

/-- The state after a semicolon, if that comes next. -/
def skipSemicolon (s : State) : State := if s.cursor.peek.kind = .semicolon then s.advance else s

/-- The cursor is a window on two tokens in a row. -/
def Aligned (s : State) : Prop := ∃ l, s.cursor = .ofLexer l

/-- The tokens from the current one on, without the end token. -/
def tokens (s : State) : List Token :=
  if s.cursor.current.kind = .eof then []
  else s.cursor.current :: if s.cursor.peek.kind = .eof then [] else s.cursor.peek :: s.cursor.lexer.tokens

theorem tokens_ofLexer {s : State} {l : Lexer} (window : s.cursor = .ofLexer l) : s.tokens = l.tokens := by
  have current : s.cursor.current = l.next.1 := by rw [window]; rfl
  have peek : s.cursor.peek = l.next.2.next.1 := by rw [window]; rfl
  have rest : s.cursor.lexer = l.next.2.next.2 := by rw [window]; rfl
  rw [tokens, current, peek, rest]
  split
  · next h => rw [Lexer.tokens_of_eof h]
  · next h =>
    rw [Lexer.tokens_of_ne_eof h]
    split
    · next h' => rw [Lexer.tokens_of_eof h']
    · next h' => rw [Lexer.tokens_of_ne_eof h']

theorem Aligned.advance {s : State} (h : s.Aligned) : s.advance.Aligned := by
  obtain ⟨l, window⟩ := h
  exact ⟨l.next.2, by simp only [State.advance, window]; rfl⟩

theorem Aligned.fail {s : State} (h : s.Aligned) (error : ParseError) : (s.fail error).Aligned := h

theorem Aligned.countLiteral {s : State} (h : s.Aligned) : s.countLiteral.Aligned := h

theorem Aligned.skipSemicolon {s : State} (h : s.Aligned) : s.skipSemicolon.Aligned := by
  unfold State.skipSemicolon
  split
  · exact h.advance
  · exact h

/-- The parser moves through the tokens one by one. -/
theorem tokens_advance {s : State} (h : s.Aligned) : s.advance.tokens = s.tokens.tail := by
  obtain ⟨l, window⟩ := h
  have moved : s.advance.cursor = .ofLexer l.next.2 := by simp only [advance, window]; rfl
  rw [tokens_ofLexer window, tokens_ofLexer moved, Lexer.tokens_next]

@[simp] theorem errors_fail (s : State) (error : ParseError) : (s.fail error).errors = s.errors.push error := rfl

@[simp] theorem errors_countLiteral (s : State) : s.countLiteral.errors = s.errors := rfl

@[simp] theorem tokens_countLiteral (s : State) : s.countLiteral.tokens = s.tokens := rfl

@[simp] theorem errors_skipSemicolon (s : State) : s.skipSemicolon.errors = s.errors := by
  unfold skipSemicolon
  split <;> rfl

theorem current_of_tokens {s : State} {t : Token} {ts : List Token} (h : s.tokens = t :: ts) :
    s.cursor.current = t := by
  rw [tokens] at h
  split at h
  · cases h
  · exact (List.cons.inj h).1

theorem tokens_eq_nil_iff {s : State} : s.tokens = [] ↔ s.cursor.current.kind = .eof := by
  rw [tokens]
  split <;> simp_all

theorem peek_of_tokens {s : State} {t u : Token} {ts : List Token} (h : s.tokens = t :: u :: ts) :
    s.cursor.peek = u := by
  rw [tokens] at h
  split at h
  · cases h
  · split at h
    · cases h
    · exact (List.cons.inj (List.cons.inj h).2).1

/-- The current token, of which the kind is known and not the end. -/
theorem exists_tokens {s : State} {kind : TokenKind} (here : s.cursor.current.kind = kind) (real : kind ≠ .eof) :
    ∃ t ts, s.tokens = t :: ts ∧ t.kind = kind := by
  match eq : s.tokens with
  | [] => exact absurd (here ▸ tokens_eq_nil_iff.1 eq) real
  | t :: ts => exact ⟨t, ts, rfl, current_of_tokens eq ▸ here⟩

/-- The token that comes next is the first of those after the current one. -/
theorem peek_of_tail {s : State} {t : Token} {ts : List Token} (h : s.tokens.tail = t :: ts) : s.cursor.peek = t := by
  match eq : s.tokens with
  | [] => simp [eq] at h
  | u :: us =>
    rw [eq, List.tail_cons] at h
    exact peek_of_tokens (eq.trans (by rw [h]))

/-- The token that comes next is the end token if and only if the current one is the last. -/
theorem tail_tokens_eq_nil_iff {s : State} (h : s.Aligned) : s.tokens.tail = [] ↔ s.cursor.peek.kind = .eof := by
  rw [← tokens_advance h, tokens_eq_nil_iff]
  rfl

/-- A token other than the end token that comes next is the second of the tokens. -/
theorem tokens_of_peek {s : State} (h : s.Aligned) (more : s.cursor.peek.kind ≠ .eof) :
    ∃ rest, s.tokens = s.cursor.current :: s.cursor.peek :: rest := by
  have tail : s.tokens.tail ≠ [] := fun empty => more ((tail_tokens_eq_nil_iff h).1 empty)
  match eq : s.tokens, tail with
  | t :: u :: rest, _ => exact ⟨rest, by rw [current_of_tokens eq, peek_of_tokens eq]⟩

/-- A token of a known kind that comes next is the first of those that are left after it is read. -/
theorem tokens_of_peek_eq {s : State} {kind : TokenKind} (h : s.Aligned) (there : s.cursor.peek.kind = kind)
    (real : kind ≠ .eof) :
    ∃ rest, s.tokens = s.cursor.current :: s.cursor.peek :: rest ∧ s.advance.tokens = s.cursor.peek :: rest := by
  obtain ⟨rest, tokens⟩ := tokens_of_peek h (there ▸ real)
  exact ⟨rest, tokens, by rw [tokens_advance h, tokens]; rfl⟩

end State

section Steps

variable {α : Type} (s : State)

@[simp] theorem current_bind (f : Token → Parser α) : (current >>= f) s = f s.cursor.current s := rfl

@[simp] theorem peekKind_bind (f : TokenKind → Parser α) : (peekKind >>= f) s = f s.cursor.peek.kind s := rfl

theorem skipSemicolon_eq : skipSemicolon s = .done (.ok ()) s.skipSemicolon := by
  change (if s.cursor.peek.kind = .semicolon then advance else pure () : Parser Unit) s = _
  unfold State.skipSemicolon
  split <;> rfl

@[simp] theorem skipSemicolon_bind (f : Unit → Parser α) : (skipSemicolon >>= f) s = f () s.skipSemicolon := by
  rw [Routine.bind_apply, skipSemicolon_eq]
  rfl

theorem expectPeek_of_eq {s : State} {expected : TokenKind} (h : s.cursor.peek.kind = expected) :
    expectPeek expected s = .done (.ok ()) s.advance := by
  change (if s.cursor.peek.kind = expected then advance else _ : Parser Unit) s = _
  rw [if_pos h]
  rfl

theorem expectPeek_of_ne {s : State} {expected : TokenKind} (h : s.cursor.peek.kind ≠ expected) :
    expectPeek expected s =
      .done (.error {}) (s.fail (.unexpectedToken expected s.cursor.peek.kind s.cursor.peek.span)) := by
  change (if s.cursor.peek.kind = expected then advance else _ : Parser Unit) s = _
  rw [if_neg h]
  rfl

end Steps

end Parser

end Monkey
