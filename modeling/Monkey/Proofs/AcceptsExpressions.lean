import Monkey.Proofs.Arrives

namespace Monkey

open Grammar

namespace Parser

section Expressions

variable {s : State} {ts rest : List Token}

theorem arrives_continued_stop {above : Precedence} {left : Expr} {post : Expr → State → Prop} (aligned : s.Aligned)
    (stops : Stops above s.tokens.tail) (h : post left s) : Arrives (produce (.continued above left)) s post := by
  unfold produce
  refine arrives_peekKind ?_
  split
  · next c kind =>
    split
    · next tighter =>
      obtain ⟨rest, tokens⟩ := State.tokens_of_peek aligned (fun eof => by rw [eof] at kind; cases kind)
      rw [tokens] at stops
      exact absurd tighter (stops.2 _ rfl c kind)
    · exact arrives_pure aligned h
  · exact arrives_pure aligned h

theorem arrives_continued {above : Precedence} {left : Expr} {post : Expr → State → Prop} {t : Token}
    {c : Continuation} (next : s.tokens.tail = t :: rest) (kind : Continuation.ofKind? t.kind = some c)
    (tighter : above < c.precedence)
    (h : Arrives (extend left c) s.advance fun e u => u.Aligned → Arrives (produce (.continued above e)) u post) :
    Arrives (produce (.continued above left)) s post := by
  unfold produce
  refine arrives_peekKind ?_
  rw [State.peek_of_tail next, kind]
  dsimp only
  rw [if_pos tighter]
  exact arrives_advance (arrives_bind h fun e u aligned goesOn => arrives_call _ (goesOn aligned))

theorem Accepts.takes {above q : Precedence} {e : Expr} (h : Accepts (.expression q) e ts rest)
    (suits : Suits above q) (stops : Stops above rest) : Takes .primary (tighter above) e ts rest := by
  intro s aligned tokens
  refine arrives_call _ (h (suits.stops stops) above suits s _ aligned tokens fun left t aligned same left_over => ?_)
  exact arrives_continued_stop aligned (left_over ▸ stops) ⟨same, left_over⟩

theorem Accepts.takes_lowest {e : Expr} (h : Accepts (.expression .lowest) e ts rest)
    (stops : Stops .lowest rest) : Takes (.expression .lowest) expression e ts rest :=
  h.takes (.inr ⟨rfl, .inl rfl⟩) stops

end Expressions

section Lists

variable {item : Symbol} {m : Parser item.Node} {more : Parser (List item.Node)} {closing : TokenKind}
  {as : List item.Node} {ts rest : List Token}

/-- Item by item: the first is taken, and those after it are the rest of the list. -/
theorem Row.takes (comma : closing ≠ .comma)
    (takes : ∀ a ts t rest, Accepts item a ts (t :: rest) → t.kind = .comma ∨ t.kind = closing →
      Takes item m a ts (t :: rest))
    (unfolds : ∀ s post, Arrives (moreItems m more) s post → Arrives more s post) {t : Token}
    (row : Row (Accepts item) as ts (t :: rest)) (closes : t.kind = closing) :
    ∃ first others mid, as = first :: others ∧ Takes item m first ts mid ∧
      TakesNext (.items item) more others mid (t :: rest) := by
  generalize whole : t :: rest = last at row
  induction row with
  | @one a ts last accepts =>
    subst whole
    refine ⟨a, [], _, rfl, takes a ts t rest accepts (.inr closes), fun s aligned next => unfolds s _ ?_⟩
    unfold moreItems
    refine arrives_peekKind ?_
    rw [State.peek_of_tail next, if_neg (closes ▸ comma)]
    exact arrives_pure aligned ⟨rfl, next⟩
  | @more a as sep ts mid last accepts isComma _ ih =>
    obtain ⟨first, others, mid', rfl, takesFirst, takesOthers⟩ := ih whole
    refine ⟨a, first :: others, _, rfl, takes a ts sep mid accepts (.inl isComma), fun s aligned next => ?_⟩
    refine unfolds s _ ?_
    unfold moreItems
    refine arrives_peekKind ?_
    rw [State.peek_of_tail next, if_pos isComma]
    have moved : s.advance.advance.tokens = mid := by
      rw [State.tokens_advance aligned.advance, State.tokens_advance aligned, next]
      rfl
    refine arrives_advance (arrives_advance ?_)
    refine arrives_bind (takesFirst _ aligned.advance.advance moved) fun first' u aligned ⟨sameFirst, next⟩ => ?_
    refine arrives_bind (takesOthers u aligned next) fun others' v aligned ⟨sameOthers, next⟩ => ?_
    exact arrives_pure aligned ⟨Symbol.erase_cons sameFirst sameOthers, next⟩

theorem Accepts.bracketed (comma : closing ≠ .comma)
    (begins : ∀ ts, item.Begins ts → ∃ t us, ts = t :: us ∧ t.kind ≠ closing)
    (takes : ∀ a ts t rest, Accepts item a ts (t :: rest) → t.kind = .comma ∨ t.kind = closing →
      Takes item m a ts (t :: rest))
    (unfolds : ∀ s post, Arrives (moreItems m more) s post → Arrives more s post)
    (h : Accepts (.list item closing) as ts rest) :
    TakesNext (.list item closing) (bracketed closing m more) as ts rest := by
  intro s aligned next
  unfold Parser.bracketed
  refine arrives_peekKind ?_
  rcases h with ⟨rfl, t, rfl, closes⟩ | ⟨started, t, row, closes⟩
  · rw [State.peek_of_tail next, if_pos closes]
    refine arrives_advance (arrives_pure aligned.advance ⟨rfl, ?_⟩)
    rw [State.tokens_advance aligned, next]
    rfl
  · obtain ⟨u, us, rfl, differs⟩ := begins ts started
    obtain ⟨first, others, mid, rfl, takesFirst, takesOthers⟩ := row.takes comma takes unfolds closes
    rw [State.peek_of_tail next, if_neg differs]
    refine arrives_advance ?_
    refine arrives_bind (takesFirst _ aligned.advance ((State.tokens_advance aligned).trans next))
      fun first' v aligned ⟨sameFirst, next⟩ => ?_
    refine arrives_bind (takesOthers v aligned next) fun others' w aligned ⟨sameOthers, next⟩ => ?_
    refine arrives_expectPeek (by rw [State.peek_of_tail next]; exact closes) ?_
    refine arrives_pure aligned.advance ⟨Symbol.erase_cons sameFirst sameOthers, ?_⟩
    rw [State.tokens_advance aligned, next]
    rfl

end Lists

section Productions

variable {s : State} {ts mid last rest : List Token}

theorem accepts_list {closing : TokenKind} {es : List Expr} (separates : Continuation.ofKind? closing = none)
    (begins : beginsExpression closing = false) (comma : closing ≠ .comma) (noElse : closing ≠ .elseWord)
    (h : Accepts (.list (.expression .lowest) closing) es ts rest) :
    TakesNext (.list (.expression .lowest) closing) (expressionList closing) es ts rest := by
  refine h.bracketed comma (fun ts started => ?_) (fun e ts t rest accepts ends => ?_)
    fun _ _ => arrives_call .moreExpressions
  · obtain ⟨t, us, tokens, starts⟩ := started
    exact ⟨t, us, tokens, ne_of_beginsExpression starts begins⟩
  · refine accepts.takes_lowest ?_
    rcases ends with isComma | closes
    · exact stops_cons isComma rfl (by decide)
    · exact stops_cons closes separates noElse

theorem accepts_pairs {ps : List (Expr × Expr)} (h : Accepts (.list .pair .rbrace) ps ts rest) :
    TakesNext (.list .pair .rbrace) (bracketed .rbrace pair morePairs) ps ts rest := by
  refine h.bracketed (by decide) (fun ts started => ?_) (fun p ts t rest accepts ends => accepts ?_)
    fun _ _ => arrives_call .morePairs
  · obtain ⟨t, us, tokens, starts⟩ := started
    exact ⟨t, us, tokens, ne_of_beginsExpression starts rfl⟩
  · rcases ends with isComma | closes
    · exact stops_cons isComma rfl (by decide)
    · exact stops_cons closes rfl (by decide)

theorem accepts_parameters {ps : List Identifier} (h : Accepts (.list .parameter .rparen) ps ts rest) :
    TakesNext (.list .parameter .rparen) (Parser.bracketed .rparen parameter moreParameters) ps ts rest := by
  refine h.bracketed (by decide) (fun ts started => ?_) (fun p ts t rest accepts _ => accepts)
    fun _ _ => arrives_call .moreParameters
  obtain ⟨t, us, tokens, starts⟩ := started
  exact ⟨t, us, tokens, ne_of_beginsExpression starts rfl⟩

theorem accepts_parameter {t : Token} {span : Span} (kind : t.kind = .ident) :
    Accepts .parameter ⟨t.literal, span⟩ (t :: rest) rest := by
  intro s aligned tokens
  unfold parameter
  refine arrives_current ?_
  rw [State.current_of_tokens tokens, if_pos kind]
  exact arrives_pure aligned ⟨rfl, by rw [tokens]; rfl⟩

theorem accepts_pair {k v : Expr} {t : Token} (key : Accepts (.expression .lowest) k ts (t :: mid))
    (colon : t.kind = .colon) (value : Accepts (.expression .lowest) v mid rest) : Accepts .pair (k, v) ts rest := by
  intro stops s aligned tokens
  unfold pair
  refine arrives_bind (key.takes_lowest (stops_cons colon rfl (by decide)) s aligned tokens)
    fun k' u aligned ⟨sameKey, next⟩ => ?_
  refine arrives_expectPeek (by rw [State.peek_of_tail next]; exact colon) (arrives_advance ?_)
  have moved : u.advance.advance.tokens = mid := by
    rw [State.tokens_advance aligned.advance, State.tokens_advance aligned, next]
    rfl
  refine arrives_bind (value.takes_lowest stops _ aligned.advance.advance moved)
    fun v' w aligned ⟨sameValue, next⟩ => ?_
  exact arrives_pure aligned ⟨Prod.ext sameKey sameValue, next⟩

theorem accepts_noAlternative : Accepts .alternative none rest rest := by
  intro noElse s aligned next
  unfold Parser.alternative
  refine arrives_peekKind ?_
  have other : s.cursor.peek.kind ≠ .elseWord := by
    match eq : rest with
    | [] =>
      rw [(State.tail_tokens_eq_nil_iff aligned).1 next]
      decide
    | t :: us =>
      rw [State.peek_of_tail next]
      exact noElse t rfl
  rw [if_neg other]
  exact arrives_pure aligned ⟨rfl, next⟩

theorem accepts_alternative {b : Block} {t : Token} (elseWord : t.kind = .elseWord) (begins : Symbol.block.Begins ts)
    (body : Accepts .block b ts rest) : Accepts .alternative (some b) (t :: ts) rest := by
  obtain ⟨u, us, opened, brace⟩ := begins
  intro _ s aligned next
  unfold Parser.alternative
  refine arrives_peekKind ?_
  have moved : s.advance.tokens = t :: ts := by rw [State.tokens_advance aligned, next]
  have moved' : s.advance.advance.tokens = ts := by rw [State.tokens_advance aligned.advance, moved]; rfl
  rw [State.peek_of_tail next, if_pos elseWord]
  refine arrives_advance (arrives_expectPeek ?_ ?_)
  · rw [State.peek_of_tokens (moved.trans (by rw [opened]))]
    exact brace
  · refine arrives_bind (body _ aligned.advance.advance moved') fun b' v aligned ⟨same, next⟩ => ?_
    exact arrives_pure aligned ⟨congrArg some same, next⟩

/-- An operand that stands alone is the left operand that the loop goes on from. -/
theorem arrives_expression {above : Precedence} {e : Expr} {post : Expr → State → Prop}
    (operand : Takes .primary operand e ts rest) (aligned : s.Aligned) (tokens : s.tokens = ts)
    (goesOn : ∀ left t, t.Aligned → Symbol.erase .primary left = Symbol.erase .primary e → t.tokens.tail = rest →
      Arrives (produce (.continued above left)) t post) : Arrives (produce (.expression above)) s post := by
  unfold produce
  refine arrives_bind (operand s aligned tokens) fun left t aligned ⟨same, next⟩ => ?_
  exact arrives_call _ (goesOn left t aligned same next)

theorem accepts_integer {n : Int64} {t : Token} {span : Span} (kind : t.kind = .int)
    (value : n.toInt = numeral t.literal.toList) : Accepts .primary (.int n span) (t :: rest) rest := by
  intro _ s aligned tokens
  unfold operand
  refine arrives_current ?_
  rw [State.current_of_tokens tokens, kind]
  dsimp only
  unfold integer
  refine arrives_current ?_
  rw [State.current_of_tokens tokens]
  rw [← digitsValue_eq_numeral] at value
  have largest : Int64.maxValue.toInt.toNat = 2 ^ 63 - 1 := by decide
  have below : n.toInt < 2 ^ 63 := n.toInt_lt
  have fits : digitsValue t.literal.toList ≤ Int64.maxValue.toInt.toNat := by omega
  have same : Int64.ofNat (digitsValue t.literal.toList) = n := by
    rw [← Int64.toInt_inj, Int64.toInt_ofNat_of_lt (by omega), value]
  dsimp only
  rw [if_pos fits, same]
  exact arrives_pure aligned ⟨rfl, by rw [tokens]; rfl⟩

/-- A token that is an operand by itself. -/
theorem accepts_word {e : Expr} {t : Token} (read : Expr)
    (same : Symbol.erase .primary read = Symbol.erase .primary e)
    (reads : ∀ s : State, s.cursor.current = t → operand s = .done (.ok read) s) :
    Accepts .primary e (t :: rest) rest := by
  intro _ s aligned tokens
  unfold Arrives
  rw [reads s (State.current_of_tokens tokens)]
  exact ⟨read, s, .done _ _, aligned, rfl, same, by rw [tokens]; rfl⟩

theorem accepts_name {t : Token} {span : Span} (kind : t.kind = .ident) :
    Accepts .primary (.name ⟨t.literal, span⟩) (t :: rest) rest := by
  refine accepts_word (.name ⟨t.literal, t.span⟩) rfl fun s here => ?_
  rw [operand, current_bind, here, kind]
  rfl

theorem accepts_string {t : Token} {span : Span} (kind : t.kind = .str) :
    Accepts .primary (.str t.literal span) (t :: rest) rest := by
  refine accepts_word (.str t.literal t.span) rfl fun s here => ?_
  rw [operand, current_bind, here, kind]
  rfl

theorem accepts_bool {b : Bool} {t : Token} {span : Span} (kind : t.kind = if b then .trueWord else .falseWord) :
    Accepts .primary (.bool b span) (t :: rest) rest := by
  refine accepts_word (.bool b t.span) rfl fun s here => ?_
  rw [operand, current_bind, here, kind]
  cases b <;> rfl

theorem takes_sign {op : UnaryOp} {kind : TokenKind} {e : Expr} {t : Token} {span : Span}
    (sign : op = .not ∧ kind = .bang ∨ op = .neg ∧ kind = .minus) (here : t.kind = kind)
    (accepts : Accepts (.expression .unary) e ts rest) (stops : Stops .unary rest) :
    Takes .primary operand (.unary op e span) (t :: ts) rest := by
  intro s aligned tokens
  have moved : s.advance.tokens = ts := by rw [State.tokens_advance aligned, tokens]; rfl
  have unary : Arrives (unary op) s fun e' u =>
      Symbol.erase .primary e' = Symbol.erase .primary (.unary op e span) ∧ u.tokens.tail = rest := by
    unfold Parser.unary
    refine arrives_current (arrives_advance ?_)
    refine arrives_bind (accepts.takes (.inr ⟨rfl, .inr rfl⟩) stops _ aligned.advance moved)
      fun e' u aligned ⟨same, next⟩ => ?_
    refine arrives_spanFrom (arrives_pure aligned ⟨?_, next⟩)
    rw [Symbol.erase_unary, Symbol.erase_unary, same]
  unfold operand
  refine arrives_current ?_
  rw [State.current_of_tokens tokens, here]
  rcases sign with ⟨rfl, rfl⟩ | ⟨rfl, rfl⟩
  · exact unary
  · exact unary

theorem accepts_sign {op : UnaryOp} {kind : TokenKind} {e : Expr} {t : Token} {span : Span}
    (sign : op = .not ∧ kind = .bang ∨ op = .neg ∧ kind = .minus) (here : t.kind = kind)
    (accepts : Accepts (.expression .unary) e ts rest) :
    Accepts (.expression .unary) (.unary op e span) (t :: ts) rest := by
  intro stops above _ s post aligned tokens goesOn
  exact arrives_expression (takes_sign sign here accepts stops) aligned tokens goesOn

theorem accepts_primary {e : Expr} (accepts : Accepts .primary e ts rest) :
    Accepts (.expression .call) e ts rest := by
  intro stops above _ s post aligned tokens goesOn
  exact arrives_expression (accepts stops.1) aligned tokens goesOn

theorem accepts_grouped {e : Expr} {t t' : Token} (paren : t.kind = .lparen)
    (accepts : Accepts (.expression .lowest) e ts (t' :: rest)) (closes : t'.kind = .rparen) :
    Accepts .primary e (t :: ts) rest := by
  intro _ s aligned tokens
  unfold operand
  refine arrives_current ?_
  rw [State.current_of_tokens tokens, paren]
  dsimp only
  unfold grouped
  have moved : s.advance.tokens = ts := by rw [State.tokens_advance aligned, tokens]; rfl
  refine arrives_advance ?_
  refine arrives_bind (accepts.takes_lowest (stops_cons closes rfl (by decide)) _ aligned.advance moved)
    fun e' u aligned ⟨same, next⟩ => ?_
  refine arrives_expectPeek (by rw [State.peek_of_tail next]; exact closes) (arrives_pure aligned.advance ⟨same, ?_⟩)
  rw [State.tokens_advance aligned, next]
  rfl

theorem accepts_conditional {c : Expr} {b : Block} {a : Option Block} {t t₁ t₂ : Token} {span : Span}
    (ifWord : t.kind = .ifWord) (lparen : t₁.kind = .lparen)
    (condition : Accepts (.expression .lowest) c ts (t₂ :: mid)) (rparen : t₂.kind = .rparen)
    (begins : Symbol.block.Begins mid) (consequence : Accepts .block b mid last)
    (otherwise : Accepts .alternative a last rest) : Accepts .primary (.cond c b a span) (t :: t₁ :: ts) rest := by
  intro noElse s aligned tokens
  obtain ⟨brace, us, opened, lbrace⟩ := begins
  unfold operand
  refine arrives_current ?_
  rw [State.current_of_tokens tokens, ifWord]
  dsimp only
  unfold conditional
  have moved : s.advance.advance.tokens = ts := by
    rw [State.tokens_advance aligned.advance, State.tokens_advance aligned, tokens]
    rfl
  refine arrives_current (arrives_expectPeek (by rw [State.peek_of_tokens tokens]; exact lparen) ?_)
  refine arrives_advance ?_
  refine arrives_bind (condition.takes_lowest (stops_cons rparen rfl (by decide)) _ aligned.advance.advance moved)
    fun c' u aligned ⟨sameCondition, next⟩ => ?_
  have afterParen : u.advance.tokens = t₂ :: mid := by rw [State.tokens_advance aligned, next]
  have atBrace : u.advance.advance.tokens = mid := by rw [State.tokens_advance aligned.advance, afterParen]; rfl
  refine arrives_expectPeek (by rw [State.peek_of_tail next]; exact rparen) (arrives_expectPeek ?_ ?_)
  · rw [State.peek_of_tokens (afterParen.trans (by rw [opened]))]
    exact lbrace
  refine arrives_bind (consequence _ aligned.advance.advance atBrace) fun b' v aligned ⟨sameBlock, next⟩ => ?_
  refine arrives_bind (otherwise noElse v aligned next) fun a' w aligned ⟨sameAlternative, next⟩ => ?_
  refine arrives_spanFrom (arrives_pure aligned ⟨?_, next⟩)
  rw [Symbol.erase_cond, Symbol.erase_cond, sameCondition, sameBlock, sameAlternative]

theorem accepts_function {ps : List Identifier} {b : Block} {t t₁ : Token} {place : Place} (fnWord : t.kind = .fnWord)
    (lparen : t₁.kind = .lparen) (parameters : Accepts (.list .parameter .rparen) ps ts mid)
    (begins : Symbol.block.Begins mid) (body : Accepts .block b mid rest) :
    Accepts .primary (.function ps b place) (t :: t₁ :: ts) rest := by
  intro _ s aligned tokens
  obtain ⟨brace, us, opened, lbrace⟩ := begins
  unfold operand
  refine arrives_current ?_
  rw [State.current_of_tokens tokens, fnWord]
  dsimp only
  unfold function
  have atParen : s.advance.tokens.tail = ts := by rw [State.tokens_advance aligned, tokens]; rfl
  refine arrives_current (arrives_expectPeek (by rw [State.peek_of_tokens tokens]; exact lparen) ?_)
  refine arrives_bind (accepts_parameters parameters _ aligned.advance atParen)
    fun ps' u aligned ⟨sameParameters, next⟩ => ?_
  have atBrace : u.advance.tokens = mid := by rw [State.tokens_advance aligned, next]
  refine arrives_expectPeek (by rw [State.peek_of_tail (next.trans opened)]; exact lbrace) ?_
  refine arrives_bind (body _ aligned.advance atBrace) fun b' v aligned ⟨sameBody, next⟩ => ?_
  have next : v.countLiteral.tokens.tail = rest := by rw [State.tokens_countLiteral, next]
  refine arrives_spanFrom (arrives_freshLiteral (arrives_pure aligned.countLiteral ⟨?_, next⟩))
  rw [Symbol.erase_function, Symbol.erase_function, sameParameters, sameBody]

theorem accepts_array {es : List Expr} {t : Token} {span : Span} (lbracket : t.kind = .lbracket)
    (elements : Accepts (.list (.expression .lowest) .rbracket) es ts rest) :
    Accepts .primary (.array es span) (t :: ts) rest := by
  intro _ s aligned tokens
  unfold operand
  refine arrives_current ?_
  rw [State.current_of_tokens tokens, lbracket]
  dsimp only
  unfold array
  refine arrives_current ?_
  refine arrives_bind (accepts_list rfl rfl (by decide) (by decide) elements s aligned (by rw [tokens]; rfl))
    fun es' u aligned ⟨same, next⟩ => ?_
  refine arrives_spanFrom (arrives_pure aligned ⟨?_, next⟩)
  rw [Symbol.erase_array, Symbol.erase_array, same]

theorem accepts_hash {ps : List (Expr × Expr)} {t : Token} {span : Span} (lbrace : t.kind = .lbrace)
    (pairs : Accepts (.list .pair .rbrace) ps ts rest) : Accepts .primary (.hash ps span) (t :: ts) rest := by
  intro _ s aligned tokens
  unfold operand
  refine arrives_current ?_
  rw [State.current_of_tokens tokens, lbrace]
  dsimp only
  unfold hash
  refine arrives_current ?_
  refine arrives_bind (accepts_pairs pairs s aligned (by rw [tokens]; rfl)) fun ps' u aligned ⟨same, next⟩ => ?_
  refine arrives_spanFrom (arrives_pure aligned ⟨?_, next⟩)
  rw [Symbol.erase_hash, Symbol.erase_hash, same]

theorem accepts_tighter {p q : Precedence} {e : Expr} (next : Next p q) (accepts : Accepts (.expression q) e ts rest) :
    Accepts (.expression p) e ts rest := by
  intro stops above suits s post aligned tokens goesOn
  have stops' : Stops q rest := ⟨stops.1, stops.2.mono (Nat.le_of_lt next.lt)⟩
  exact accepts stops' above (suits.tighter next.lt) s post aligned tokens goesOn

/-- The loop comes to the operator with the left operand, takes the right one and goes on. -/
theorem accepts_binary {op : BinaryOp} {p q : Precedence} {l r : Expr} {t : Token} {span : Span}
    (left : Accepts (.expression p) l ts (t :: mid)) (sign : Sign t.kind op p) (next : Next p q)
    (right : Accepts (.expression q) r mid rest) : Accepts (.expression p) (.binary op l r span) ts rest := by
  obtain ⟨kind, rfl⟩ := sign_iff.1 sign
  have tighter := next.lt
  intro stops above suits s post aligned tokens goesOn
  refine left (stops_continuation kind) above suits s post aligned tokens fun l' u aligned sameLeft next => ?_
  refine arrives_continued next kind suits.lt_of_binary ?_
  have moved : u.advance.advance.tokens = mid := by
    rw [State.tokens_advance aligned.advance, State.tokens_advance aligned, next]
    rfl
  unfold extend
  refine arrives_advance ?_
  refine arrives_bind (right.takes (.inl tighter) stops _ aligned.advance.advance moved)
    fun r' v aligned ⟨sameRight, next⟩ => ?_
  refine arrives_pure aligned fun aligned => goesOn _ v aligned ?_ next
  rw [Symbol.erase_binary, Symbol.erase_binary, sameLeft, sameRight]

theorem accepts_call {f : Expr} {as : List Expr} {t : Token} {span : Span}
    (callee : Accepts (.expression .call) f ts (t :: mid)) (lparen : t.kind = .lparen)
    (arguments : Accepts (.list (.expression .lowest) .rparen) as mid rest) :
    Accepts (.expression .call) (.call f as span) ts rest := by
  intro _ above suits s post aligned tokens goesOn
  have kind : Continuation.ofKind? t.kind = some .call := by rw [lparen]; rfl
  refine callee (stops_continuation kind) above suits s post aligned tokens fun f' u aligned sameCallee next => ?_
  refine arrives_continued next kind suits.lt_call ?_
  have atParen : u.advance.tokens.tail = mid := by rw [State.tokens_advance aligned, next]; rfl
  unfold extend
  refine arrives_bind (accepts_list rfl rfl (by decide) (by decide) arguments _ aligned.advance atParen)
    fun as' v aligned ⟨sameArguments, next⟩ => ?_
  refine arrives_spanFrom (arrives_pure aligned fun aligned => goesOn _ v aligned ?_ next)
  rw [Symbol.erase_call, Symbol.erase_call, sameCallee, sameArguments]

theorem accepts_index {b i : Expr} {t t' : Token} {span : Span} (base : Accepts (.expression .call) b ts (t :: mid))
    (lbracket : t.kind = .lbracket) (index : Accepts (.expression .lowest) i mid (t' :: rest))
    (rbracket : t'.kind = .rbracket) : Accepts (.expression .call) (.index b i span) ts rest := by
  intro _ above suits s post aligned tokens goesOn
  have kind : Continuation.ofKind? t.kind = some .index := by rw [lbracket]; rfl
  refine base (stops_continuation kind) above suits s post aligned tokens fun b' u aligned sameBase next => ?_
  refine arrives_continued next kind suits.lt_call ?_
  have moved : u.advance.advance.tokens = mid := by
    rw [State.tokens_advance aligned.advance, State.tokens_advance aligned, next]
    rfl
  unfold extend
  refine arrives_advance ?_
  refine arrives_bind (index.takes_lowest (stops_cons rbracket rfl (by decide)) _ aligned.advance.advance moved)
    fun i' v aligned ⟨sameIndex, next⟩ => ?_
  refine arrives_expectPeek (by rw [State.peek_of_tail next]; exact rbracket) ?_
  refine arrives_spanFrom (arrives_pure aligned.advance fun aligned' => goesOn _ _ aligned' ?_ ?_)
  · rw [Symbol.erase_index, Symbol.erase_index, sameBase, sameIndex]
  · rw [State.tokens_advance aligned, next]
    rfl

end Productions

end Parser

end Monkey
