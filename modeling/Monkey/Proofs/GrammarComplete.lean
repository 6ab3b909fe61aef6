import Monkey.Proofs.AcceptsExpressions

namespace Monkey

open Grammar

namespace Parser

section Productions

variable {s : State} {ts mid last rest : List Token}

/-- The parser skips the semicolon of a statement, and no other. -/
theorem tokens_skipSemicolon_of_ends (h : Ends mid rest) (settled : Settled rest) (aligned : s.Aligned)
    (next : s.tokens.tail = mid) : s.skipSemicolon.tokens.tail = rest := by
  unfold State.skipSemicolon
  cases h with
  | semicolon kind =>
    rw [State.peek_of_tail next, if_pos kind, State.tokens_advance aligned, next]
    rfl
  | nothing _ =>
    have other : s.cursor.peek.kind ≠ .semicolon := by
      match eq : mid with
      | [] =>
        rw [(State.tail_tokens_eq_nil_iff aligned).1 next]
        decide
      | t :: us =>
        rw [State.peek_of_tail next]
        exact (settled t rfl).1
    rw [if_neg other, next]

theorem accepts_let {e : Expr} {t t₁ t₂ : Token} {nameSpan span : Span} (letWord : t.kind = .letWord)
    (ident : t₁.kind = .ident) (assign : t₂.kind = .assign) (value : Accepts (.expression .lowest) e ts mid)
    (ends : Ends mid rest) : Accepts .statement (.bind ⟨t₁.literal, nameSpan⟩ e span) (t :: t₁ :: t₂ :: ts) rest := by
  intro settled s aligned tokens
  unfold produce
  refine arrives_current ?_
  rw [State.current_of_tokens tokens, letWord]
  dsimp only
  unfold letStatement
  have atName : s.advance.tokens = t₁ :: t₂ :: ts := by rw [State.tokens_advance aligned, tokens]; rfl
  have atValue : s.advance.advance.advance.tokens = ts := by
    rw [State.tokens_advance aligned.advance.advance, State.tokens_advance aligned.advance, atName]
    rfl
  refine arrives_current (arrives_expectPeek (by rw [State.peek_of_tokens tokens]; exact ident) ?_)
  refine arrives_current (arrives_expectPeek (by rw [State.peek_of_tokens atName]; exact assign) (arrives_advance ?_))
  refine arrives_bind (value.takes_lowest (ends.stops settled) _ aligned.advance.advance.advance atValue)
    fun e' u aligned ⟨same, next⟩ => ?_
  refine arrives_skipSemicolon (arrives_spanFrom (arrives_pure aligned.skipSemicolon ⟨?_, ?_⟩))
  · rw [State.current_of_tokens atName]
    exact congrArg (Statement.bind ⟨t₁.literal, .origin⟩ · .origin) same
  · exact tokens_skipSemicolon_of_ends ends settled aligned next

/-- A return statement, if its value is found and the semicolon after it is skipped. -/
theorem accepts_return {value : Option Expr} {t : Token} {span : Span} (returnWord : t.kind = .returnWord)
    (h : ∀ s : State, s.Aligned → s.tokens = t :: ts → Arrives returnValue s fun value' u =>
      value'.map (Symbol.primary.erase ·) = value.map (Symbol.primary.erase ·) ∧ u.skipSemicolon.tokens.tail = rest) :
    Takes .statement (produce .statement) (.ret value span) (t :: ts) rest := by
  intro s aligned tokens
  unfold produce
  refine arrives_current ?_
  rw [State.current_of_tokens tokens, returnWord]
  dsimp only
  unfold returnStatement
  refine arrives_current (arrives_bind (h s aligned tokens) fun value' u aligned ⟨same, next⟩ => ?_)
  refine arrives_skipSemicolon (arrives_spanFrom (arrives_pure aligned.skipSemicolon ⟨?_, next⟩))
  match value', value, same with
  | none, none, _ => rfl
  | some e', some e, same => exact congrArg (Statement.ret · .origin) same

theorem accepts_returnValue {e : Expr} {t : Token} {span : Span} (returnWord : t.kind = .returnWord)
    (begins : (Symbol.expression .lowest).Begins ts) (accepts : Accepts (.expression .lowest) e ts mid)
    (ends : Ends mid rest) : Accepts .statement (.ret (some e) span) (t :: ts) rest := by
  intro settled
  refine accepts_return returnWord fun s aligned tokens => ?_
  obtain ⟨u, us, rfl, starts⟩ := begins
  unfold returnValue
  refine arrives_peekKind ?_
  rw [State.peek_of_tokens tokens]
  have moved : s.advance.tokens = u :: us := by rw [State.tokens_advance aligned, tokens]; rfl
  have value : Arrives (do advance; return some (← expression)) s fun value' v =>
      value'.map (Symbol.primary.erase ·) = some (Symbol.primary.erase e) ∧ v.skipSemicolon.tokens.tail = rest := by
    refine arrives_advance ?_
    refine arrives_bind (accepts.takes_lowest (ends.stops settled) _ aligned.advance moved)
      fun e' v aligned ⟨same, next⟩ => ?_
    exact arrives_pure aligned ⟨congrArg some same, tokens_skipSemicolon_of_ends ends settled aligned next⟩
  split
  · next semicolon => exact absurd semicolon (ne_of_beginsExpression starts rfl)
  · next rbrace => exact absurd rbrace (ne_of_beginsExpression starts rfl)
  · next eof => exact absurd eof (ne_of_beginsExpression starts rfl)
  · exact value

theorem accepts_bareReturn {t t' : Token} {span : Span} (returnWord : t.kind = .returnWord)
    (semicolon : t'.kind = .semicolon) : Accepts .statement (.ret none span) (t :: t' :: rest) rest := by
  intro _
  refine accepts_return returnWord fun s aligned tokens => ?_
  unfold returnValue
  refine arrives_peekKind ?_
  rw [State.peek_of_tokens tokens, semicolon]
  refine arrives_pure aligned ⟨rfl, ?_⟩
  unfold State.skipSemicolon
  rw [State.peek_of_tokens tokens, if_pos semicolon, State.tokens_advance aligned, tokens]
  rfl

theorem accepts_lastReturn {t : Token} {span : Span} (returnWord : t.kind = .returnWord)
    (ends : ∀ t' ∈ rest.head?, t'.kind = .rbrace) : Accepts .statement (.ret none span) (t :: rest) rest := by
  intro _
  refine accepts_return returnWord fun s aligned tokens => ?_
  have next : s.tokens.tail = rest := by rw [tokens]; rfl
  have ends : s.cursor.peek.kind = .rbrace ∨ s.cursor.peek.kind = .eof := by
    match rest with
    | [] => exact .inr ((State.tail_tokens_eq_nil_iff aligned).1 next)
    | u :: us =>
      rw [State.peek_of_tail next]
      exact .inl (ends u rfl)
  have stay : s.skipSemicolon = s := by
    unfold State.skipSemicolon
    rw [if_neg (by rcases ends with h | h <;> simp [h])]
  have post : (none : Option Expr).map (Symbol.primary.erase ·) = none ∧ s.skipSemicolon.tokens.tail = rest := by
    rw [stay, next]
    exact ⟨rfl, rfl⟩
  unfold returnValue
  refine arrives_peekKind ?_
  rcases ends with rbrace | eof
  · rw [rbrace]
    exact arrives_pure aligned post
  · rw [eof]
    exact arrives_pure aligned post

theorem accepts_expressionStatement {e : Expr} (begins : (Symbol.expression .lowest).Begins ts)
    (accepts : Accepts (.expression .lowest) e ts mid) (ends : Ends mid rest) :
    Accepts .statement (.expr e) ts rest := by
  intro settled s aligned tokens
  obtain ⟨u, us, rfl, starts⟩ := begins
  have value : Arrives (do let e ← expression; skipSemicolon; return .expr e) s fun st v =>
      Symbol.statement.erase st = Symbol.statement.erase (.expr e) ∧ v.tokens.tail = rest := by
    refine arrives_bind (accepts.takes_lowest (ends.stops settled) s aligned tokens)
      fun e' v aligned ⟨same, next⟩ => ?_
    refine arrives_skipSemicolon (arrives_pure aligned.skipSemicolon ⟨congrArg Statement.expr same, ?_⟩)
    exact tokens_skipSemicolon_of_ends ends settled aligned next
  unfold produce
  refine arrives_current ?_
  rw [State.current_of_tokens tokens]
  split
  · next letWord => exact absurd letWord (ne_of_beginsExpression starts rfl)
  · next returnWord => exact absurd returnWord (ne_of_beginsExpression starts rfl)
  · exact value

theorem accepts_noStatements : Accepts .statements [] rest rest := by
  intro inBlock closed s aligned tokens
  have ends : s.cursor.current.kind = .eof ∨ (inBlock ∧ s.cursor.current.kind = .rbrace) := by
    rcases closed with rfl | ⟨inBlock, t, us, rfl, rbrace⟩
    · exact .inl (State.tokens_eq_nil_iff.1 tokens)
    · exact .inr ⟨inBlock, by rw [State.current_of_tokens tokens]; exact rbrace⟩
  unfold produce
  refine arrives_current ?_
  dsimp only
  rw [if_pos ends]
  exact arrives_pure aligned ⟨rfl, tokens⟩

theorem accepts_moreStatements {st : Statement} {ss : List Statement} (begins : Symbol.statement.Begins ts)
    (settled : ∀ inBlock, Closed inBlock rest → Settled mid) (first : Accepts .statement st ts mid)
    (others : Accepts .statements ss mid rest) : Accepts .statements (st :: ss) ts rest := by
  intro inBlock closed s aligned tokens
  obtain ⟨t, us, rfl, starts⟩ := begins
  have kept : t.kind ≠ .eof ∧ t.kind ≠ .rbrace := by
    rcases starts with begins | letWord | returnWord
    · exact ⟨ne_of_beginsExpression begins rfl, ne_of_beginsExpression begins rfl⟩
    · exact ⟨by rw [letWord]; decide, by rw [letWord]; decide⟩
    · exact ⟨by rw [returnWord]; decide, by rw [returnWord]; decide⟩
  unfold produce
  refine arrives_current ?_
  dsimp only
  rw [State.current_of_tokens tokens, if_neg (by simp [kept])]
  refine arrives_bind (arrives_attempt (arrives_call _ (first (settled inBlock closed) s aligned tokens)))
    fun read u aligned ⟨st', outcome, sameFirst, next⟩ => ?_
  subst outcome
  have moved : u.advance.tokens = mid := by rw [State.tokens_advance aligned, next]
  refine arrives_advance ?_
  refine arrives_bind (arrives_call _ (others inBlock closed _ aligned.advance moved))
    fun ss' v aligned ⟨sameOthers, tokens⟩ => ?_
  exact arrives_pure aligned ⟨@Symbol.erase_cons .statement _ _ _ _ sameFirst sameOthers, tokens⟩

theorem accepts_block {ss : List Statement} {t : Token} {span : Span}
    (body : Accepts .statements ss ts last) (closed : Closed true last) (rest_eq : last.tail = rest) :
    Accepts .block (.mk ss span) (t :: ts) rest := by
  intro s aligned tokens
  unfold block
  refine arrives_current (arrives_advance ?_)
  have moved : s.advance.tokens = ts := by rw [State.tokens_advance aligned, tokens]; rfl
  refine arrives_bind (arrives_call _ (body true closed _ aligned.advance moved))
    fun ss' u aligned ⟨same, tokens⟩ => ?_
  refine arrives_spanFrom (arrives_pure aligned ⟨?_, by rw [tokens, rest_eq]⟩)
  rw [Symbol.erase_block, Symbol.erase_block, same]

theorem accepts_of_reads {symbol : Symbol} {a : symbol.Node} (h : Reads symbol a ts rest) :
    Accepts symbol a ts rest := by
  induction h with
  | tighter next _ ih => exact accepts_tighter next ih
  | primary _ ih => exact accepts_primary ih
  | call _ _ kind _ callee arguments => exact accepts_call callee kind arguments
  | index _ _ kind _ kind' base index => exact accepts_index base kind index kind'
  | not _ kind _ ih => exact accepts_sign (.inl ⟨rfl, rfl⟩) kind ih
  | neg _ kind _ ih => exact accepts_sign (.inr ⟨rfl, rfl⟩) kind ih
  | binary _ _ sign next _ left right => exact accepts_binary left sign next right
  | name _ kind => exact accepts_name kind
  | int _ kind value => exact accepts_integer kind value
  | str _ kind => exact accepts_string kind
  | trueWord _ kind => exact accepts_bool kind
  | falseWord _ kind => exact accepts_bool kind
  | grouped kind _ kind' ih => exact accepts_grouped kind ih kind'
  | cond _ kind kind₁ _ kind₂ block _ condition consequence otherwise =>
    exact accepts_conditional kind kind₁ condition kind₂ block.begins consequence otherwise
  | noAlternative => exact accepts_noAlternative
  | alternative kind block body => exact accepts_alternative kind block.begins body
  | function _ kind kind₁ _ block parameters body =>
    exact accepts_function kind kind₁ parameters block.begins body
  | array _ kind _ elements => exact accepts_array kind elements
  | hash _ kind _ pairs => exact accepts_hash kind pairs
  | parameter _ kind => exact accepts_parameter kind
  | pair _ kind _ key value => exact accepts_pair key kind value
  | one _ ih => exact .one ih
  | more _ kind _ first others => exact .more first kind others
  | emptyList kind => exact .inl ⟨rfl, _, rfl, kind⟩
  | list items kind row => exact .inr ⟨items.begins, _, row, kind⟩
  | bind _ _ kind kind₁ kind₂ _ ends value => exact accepts_let kind kind₁ kind₂ value ends
  | ret _ kind value ends ih => exact accepts_returnValue kind value.begins ih ends
  | bareRet _ kind kind' => exact accepts_bareReturn kind kind'
  | lastRet _ kind ends => exact accepts_lastReturn kind ends
  | expr value ends ih => exact accepts_expressionStatement value.begins ih ends
  | noStatements => exact accepts_noStatements
  | moreStatements first others ihFirst ihOthers =>
    exact accepts_moreStatements first.begins (fun _ => others.settled) ihFirst ihOthers
  | block _ kind _ kind' ih => exact accepts_block ih (.inr ⟨rfl, _, _, rfl, kind'⟩) rfl
  | cutBlock _ kind _ ih => exact accepts_block ih (.inl rfl) rfl

end Productions

end Parser

/-- What the grammar says that the tokens of a text stand for is read without errors, up to spans. -/
theorem parse_of_reads {source : String} {p : Program}
    (h : Reads .statements p.statements (Lexer.ofString source).tokens []) :
    (parse source).errors = [] ∧ (parse source).program.eraseSpans = p.eraseSpans := by
  obtain ⟨ss, t, returns, parsed⟩ := exists_returns_parse source
  have accepted := Parser.arrives_call _ (Parser.accepts_of_reads h false (.inl rfl) _
    (Parser.State.aligned_start source) (Parser.State.tokens_start source))
  obtain ⟨ss', t', returns', _, errors, same, _⟩ := accepted
  obtain ⟨outcome, rfl⟩ := returns.unique returns'
  cases outcome
  rw [parsed]
  refine ⟨congrArg Array.toList errors, congrArg Program.mk ?_⟩
  rw [mapStatements_eq_map, mapStatements_eq_map]
  exact same

/-- The parser finds, without errors and up to spans, what its grammar derives. -/
theorem parse_of_derives {source : String} {p : Program} (h : Grammar.Derives (lex source).dropLast p) :
    (parse source).errors = [] ∧ (parse source).program.eraseSpans = p.eraseSpans := by
  rw [dropLast_lex] at h
  exact parse_of_reads h

theorem parse_of_derives_difference :
    let difference : Expr :=
      .binary .sub (.binary .sub (.name ⟨"a", .origin⟩) (.int 1 .origin) .origin) (.name ⟨"b", .origin⟩) .origin
    let p : Program := ⟨[.expr difference, .ret none .origin]⟩
    Grammar.Derives (lex "a - 1 - (b); return").dropLast p ∧ (parse "a - 1 - (b); return").errors = [] ∧
      (parse "a - 1 - (b); return").program.eraseSpans = p.eraseSpans := by
  intro difference p
  have tokens : (lex "a - 1 - (b); return").dropLast =
      [⟨.ident, "a", ⟨0, 1⟩⟩, ⟨.minus, "-", ⟨2, 3⟩⟩, ⟨.int, "1", ⟨4, 5⟩⟩, ⟨.minus, "-", ⟨6, 7⟩⟩,
        ⟨.lparen, "(", ⟨8, 9⟩⟩, ⟨.ident, "b", ⟨9, 10⟩⟩, ⟨.rparen, ")", ⟨10, 11⟩⟩, ⟨.semicolon, ";", ⟨11, 12⟩⟩,
        ⟨.returnWord, "return", ⟨13, 19⟩⟩] := by decide +kernel
  have a (rest : List Token) : Reads .primary (.name ⟨"a", .origin⟩) (⟨.ident, "a", ⟨0, 1⟩⟩ :: rest) rest :=
    .name (t := ⟨.ident, "a", ⟨0, 1⟩⟩) .origin rfl
  have one (rest : List Token) : Reads .primary (.int 1 .origin) (⟨.int, "1", ⟨4, 5⟩⟩ :: rest) rest :=
    .int .origin rfl (by decide)
  have b (rest : List Token) : Reads .primary (.name ⟨"b", .origin⟩)
      (⟨.lparen, "(", ⟨8, 9⟩⟩ :: ⟨.ident, "b", ⟨9, 10⟩⟩ :: ⟨.rparen, ")", ⟨10, 11⟩⟩ :: rest) rest :=
    .grouped rfl ((Reads.primary (.name (t := ⟨.ident, "b", ⟨9, 10⟩⟩) .origin rfl)).loosen (by decide)) rfl
  have inner (rest : List Token) : Reads (.expression .sum)
      (.binary .sub (.name ⟨"a", .origin⟩) (.int 1 .origin) .origin)
      (⟨.ident, "a", ⟨0, 1⟩⟩ :: ⟨.minus, "-", ⟨2, 3⟩⟩ :: ⟨.int, "1", ⟨4, 5⟩⟩ :: rest) rest :=
    .binary .origin ((Reads.primary (a _)).loosen (by decide)) .sub .sum ((Reads.primary (one _)).loosen (by decide))
  have derives : Grammar.Derives (lex "a - 1 - (b); return").dropLast p := by
    rw [tokens]
    have outer (rest : List Token) :=
      Reads.binary (t := ⟨.minus, "-", ⟨6, 7⟩⟩) .origin (inner _) .sub .sum
        ((Reads.primary (b rest)).loosen (by decide))
    have ends (rest : List Token) : Ends (⟨.semicolon, ";", ⟨11, 12⟩⟩ :: rest) rest := .semicolon rfl
    refine .moreStatements (.expr ((outer _).loosen (by decide)) (ends _)) ?_
    exact .moreStatements (.lastRet .origin rfl (by simp)) .noStatements
  exact ⟨derives, parse_of_derives derives⟩

end Monkey
