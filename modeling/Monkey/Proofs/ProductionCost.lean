import Monkey.Proofs.ParserCost

namespace Monkey

namespace Parser

section Productions

variable {α : Type} {bound : Nat} {s : State}

theorem thrifty_moreItems {item : Parser α} {more : Parser (List α)} (below : 4 * s.tokens.length ≤ bound)
    (items : ∀ t : State, 4 * t.tokens.length + 1 < bound → Thrifty bound 2 item t)
    (others : ∀ t : State, 4 * t.tokens.length < bound → Thrifty bound 1 more t) :
    Thrifty bound 0 (moreItems item more) s := by
  refine thrifty_intro fun aligned calls enough => ?_
  have two (comma : s.cursor.peek.kind = .comma) : s.advance.advance.tokens.length + 2 = s.tokens.length := by
    obtain ⟨opened, left⟩ := State.opened_of_peek aligned comma (by decide)
    have first := State.length_tokens_advance aligned opened
    have second := State.length_tokens_advance aligned.advance left
    omega
  have first (comma : s.cursor.peek.kind = .comma) :=
    have two := two comma
    items s.advance.advance (by omega) calls (by omega)
  refine .moreItems (fun _ => Nat.le_refl _) first fun a q comma leads spent => ?_
  have two := two comma
  have shorter : q.state.tokens.length ≤ s.advance.advance.tokens.length := shorter_of_leads leads
  exact (others q.state (by omega) q.calls (by omega)).mono fun _ r _ spent' => by omega

theorem thrifty_bracketed {closing : TokenKind} {item : Parser α} {more : Parser (List α)} (opened : s.tokens ≠ [])
    (below : 4 * s.tokens.length ≤ bound)
    (items : ∀ t : State, 4 * t.tokens.length + 1 < bound → Thrifty bound 2 item t)
    (others : ∀ t : State, 4 * t.tokens.length < bound → Thrifty bound 1 more t) :
    Thrifty bound 0 (bracketed closing item more) s := by
  refine thrifty_intro fun aligned calls enough => ?_
  have one := State.length_tokens_advance aligned opened
  have closed : calls + 8 * s.advance.tokens.length ≤ calls + 8 * s.tokens.length := by omega
  refine .bracketed (fun _ => closed) (items s.advance (by omega) calls (by omega)) fun a q leads spent => ?_
  have shorter : q.state.tokens.length ≤ s.advance.tokens.length := shorter_of_leads leads
  refine (others q.state (by omega) q.calls (by omega)).mono fun _ r leads' spent' _ => ?_
  have closed := State.length_tokens_advance_le (aligned_of_leads leads')
  dsimp only
  omega

theorem thrifty_expression (above : Precedence) (below : 4 * s.tokens.length + 1 < bound) :
    Thrifty bound 2 (Routine.call (Goal.expression above)) s :=
  thrifty_call (.expression above) below

theorem thrifty_continuedCall {above : Precedence} {left : Expr} (below : 4 * s.tokens.length < bound) :
    Thrifty bound 1 (Routine.call (Goal.continued above left)) s :=
  thrifty_call (.continued above left) below

theorem thrifty_pair (below : 4 * s.tokens.length + 1 < bound) : Thrifty bound 2 pair s := by
  unfold pair
  refine fun calls enough => .bind (thrifty_expression _ below calls enough) fun key q leads spent => ?_
  have shorter : q.state.tokens.length ≤ s.tokens.length := shorter_of_leads leads
  refine .expectPeek fun colon => .advance ?_
  obtain ⟨opened, left⟩ := State.opened_of_peek (aligned_of_leads leads) colon (by decide)
  have one := State.length_tokens_advance (aligned_of_leads leads) opened
  have two := State.length_tokens_advance (aligned_of_leads leads).advance left
  refine .bind (thrifty_expression (s := q.state.advance.advance) _ (by omega) q.calls (by omega)) ?_
  exact fun value r _ spent' => .pure (by omega)

theorem thrifty_parameter : Thrifty bound 2 parameter s := by
  unfold parameter
  refine fun calls enough => .current ?_
  split
  · exact .pure (by dsimp only; omega)
  · exact .fail .current (.unexpected .ident)

theorem thrifty_block (opened : s.tokens ≠ []) (below : 4 * s.tokens.length ≤ bound) : Thrifty bound 0 block s := by
  unfold block
  refine thrifty_intro fun aligned calls enough => .current (.advance ?_)
  have one := State.length_tokens_advance aligned opened
  have surcharge := surcharge_statements_le true s.advance.tokens.length
  have weight : 4 * s.advance.tokens.length + 3 < bound := by omega
  refine .bind (thrifty_call (.statements true) weight calls (by omega)) fun ss q _ spent => .spanFrom (.pure ?_)
  omega

theorem thrifty_expressionList {closing : TokenKind} (opened : s.tokens ≠ []) (below : 4 * s.tokens.length ≤ bound) :
    Thrifty bound 0 (expressionList closing) s :=
  thrifty_bracketed opened below (fun _ below => thrifty_expression _ below)
    fun _ below => thrifty_call .moreExpressions below

theorem thrifty_integer : Thrifty bound 0 integer s := by
  unfold integer
  refine fun calls enough => .current ?_
  dsimp only
  split
  · exact .pure (Nat.le_refl _)
  · exact .fail .current .tooLarge

theorem thrifty_unary {op : UnaryOp} (opened : s.tokens ≠ []) (below : 4 * s.tokens.length ≤ bound) :
    Thrifty bound 0 (unary op) s := by
  unfold unary
  refine thrifty_intro fun aligned calls enough => .current (.advance ?_)
  have one := State.length_tokens_advance aligned opened
  refine .bind (thrifty_expression (s := s.advance) _ (by omega) calls (by omega)) ?_
  exact fun e q _ spent => .spanFrom (.pure (by omega))

theorem thrifty_grouped (opened : s.tokens ≠ []) (below : 4 * s.tokens.length ≤ bound) :
    Thrifty bound 0 grouped s := by
  unfold grouped
  refine thrifty_intro fun aligned calls enough => .advance ?_
  have one := State.length_tokens_advance aligned opened
  refine .bind (thrifty_expression (s := s.advance) _ (by omega) calls (by omega)) fun e q leads spent => ?_
  have closed := State.length_tokens_advance_le (aligned_of_leads leads)
  exact .expectPeek fun _ => .pure (by dsimp only; omega)

theorem thrifty_alternative (below : 4 * s.tokens.length ≤ bound) : Thrifty bound 0 alternative s := by
  unfold alternative
  refine thrifty_intro fun aligned calls enough => .peekKind ?_
  split
  · next there =>
    obtain ⟨opened, left⟩ := State.opened_of_peek aligned there (by decide)
    have one := State.length_tokens_advance aligned opened
    have two := State.length_tokens_advance aligned.advance left
    refine .advance (.expectPeek fun brace => ?_)
    obtain ⟨_, braced⟩ := State.opened_of_peek aligned.advance brace (by decide)
    refine .bind (thrifty_block braced (by omega) calls (by omega)) fun b q _ spent => .pure ?_
    omega
  · exact .pure (Nat.le_refl _)

theorem thrifty_conditional (below : 4 * s.tokens.length ≤ bound) : Thrifty bound 0 conditional s := by
  unfold conditional
  refine thrifty_intro fun aligned calls enough => .current (.expectPeek fun paren => .advance ?_)
  obtain ⟨opened, left⟩ := State.opened_of_peek aligned paren (by decide)
  have one := State.length_tokens_advance aligned opened
  have two := State.length_tokens_advance aligned.advance left
  refine .bind (thrifty_expression (s := s.advance.advance) _ (by omega) calls (by omega)) fun c q leads spent => ?_
  have shorter : q.state.tokens.length ≤ s.advance.advance.tokens.length := shorter_of_leads leads
  have aligned := aligned_of_leads leads
  refine .expectPeek fun closes => .expectPeek fun brace => ?_
  obtain ⟨opened, _⟩ := State.opened_of_peek aligned closes (by decide)
  obtain ⟨left, braced⟩ := State.opened_of_peek aligned.advance brace (by decide)
  have three := State.length_tokens_advance aligned opened
  have four := State.length_tokens_advance aligned.advance left
  refine .bind (thrifty_block braced (by omega) q.calls (by omega)) fun consequence r leads' spent' => ?_
  have shorter' : r.state.tokens.length ≤ q.state.advance.advance.tokens.length := shorter_of_leads leads'
  refine .bind (thrifty_alternative (by omega) r.calls (by omega)) fun otherwise v _ spent'' => ?_
  exact .spanFrom (.pure (by omega))

theorem thrifty_function (below : 4 * s.tokens.length ≤ bound) : Thrifty bound 0 function s := by
  have parameters (t : State) (opened : t.tokens ≠ []) (below : 4 * t.tokens.length ≤ bound) :
      Thrifty bound 0 (bracketed .rparen parameter moreParameters) t :=
    thrifty_bracketed opened below (fun _ _ => thrifty_parameter) fun _ below => thrifty_call .moreParameters below
  unfold function
  refine thrifty_intro fun aligned calls enough => .current (.expectPeek fun paren => ?_)
  obtain ⟨opened, left⟩ := State.opened_of_peek aligned paren (by decide)
  have one := State.length_tokens_advance aligned opened
  refine .bind (parameters s.advance left (by omega) calls (by omega)) fun ids q leads spent => ?_
  have shorter : q.state.tokens.length ≤ s.advance.tokens.length := shorter_of_leads leads
  refine .expectPeek fun brace => ?_
  obtain ⟨opened, braced⟩ := State.opened_of_peek (aligned_of_leads leads) brace (by decide)
  have two := State.length_tokens_advance (aligned_of_leads leads) opened
  refine .bind (thrifty_block braced (by omega) q.calls (by omega)) fun body r _ spent' => ?_
  exact .spanFrom (.freshLiteral (.pure (by dsimp only [State.tokens_countLiteral]; omega)))

theorem thrifty_array (opened : s.tokens ≠ []) (below : 4 * s.tokens.length ≤ bound) : Thrifty bound 0 array s := by
  unfold array
  refine fun calls enough => .current (.bind (thrifty_expressionList opened below calls enough) ?_)
  exact fun elements q _ spent => .spanFrom (.pure spent)

theorem thrifty_hash (opened : s.tokens ≠ []) (below : 4 * s.tokens.length ≤ bound) : Thrifty bound 0 hash s := by
  have pairs : Thrifty bound 0 (bracketed .rbrace pair morePairs) s :=
    thrifty_bracketed opened below (fun _ below => thrifty_pair below) fun _ below => thrifty_call .morePairs below
  unfold hash
  refine fun calls enough => .current (.bind (pairs calls enough) ?_)
  exact fun _ q _ spent => .spanFrom (.pure spent)

theorem thrifty_operand (below : 4 * s.tokens.length ≤ bound) : Thrifty bound 0 operand s := by
  have opened {kind : TokenKind} (here : s.cursor.current.kind = kind) (real : kind ≠ .eof) : s.tokens ≠ [] :=
    fun empty => real (here ▸ State.tokens_eq_nil_iff.1 empty)
  unfold operand
  refine fun calls enough => .current ?_
  split
  · exact .pure (Nat.le_refl _)
  · exact thrifty_integer calls enough
  · exact .pure (Nat.le_refl _)
  · exact .pure (Nat.le_refl _)
  · exact .pure (Nat.le_refl _)
  · next here => exact thrifty_unary (opened here (by decide)) below calls enough
  · next here => exact thrifty_unary (opened here (by decide)) below calls enough
  · next here => exact thrifty_grouped (opened here (by decide)) below calls enough
  · exact thrifty_conditional below calls enough
  · exact thrifty_function below calls enough
  · next here => exact thrifty_array (opened here (by decide)) below calls enough
  · next here => exact thrifty_hash (opened here (by decide)) below calls enough
  · exact .fail .current .noExpression

theorem thrifty_extend {left : Expr} {c : Continuation} (opened : s.tokens ≠ [])
    (below : 4 * s.tokens.length ≤ bound) : Thrifty bound 0 (extend left c) s := by
  unfold extend
  refine thrifty_intro fun aligned calls enough => ?_
  have one := State.length_tokens_advance aligned opened
  cases c with
  | binary op =>
    refine .advance (.bind (thrifty_expression (s := s.advance) _ (by omega) calls (by omega)) ?_)
    exact fun right q _ spent => .pure (by omega)
  | call =>
    refine .bind (thrifty_expressionList opened below calls enough) ?_
    exact fun arguments q _ spent => .spanFrom (.pure spent)
  | index =>
    refine .advance (.bind (thrifty_expression (s := s.advance) _ (by omega) calls (by omega)) ?_)
    refine fun i q leads spent => .expectPeek fun _ => .spanFrom (.pure ?_)
    have closed := State.length_tokens_advance_le (aligned_of_leads leads)
    dsimp only
    omega

theorem thrifty_letStatement (below : 4 * s.tokens.length ≤ bound) : Thrifty bound 0 letStatement s := by
  unfold letStatement
  refine thrifty_intro fun aligned calls enough => .current (.expectPeek fun name => .current ?_)
  refine .expectPeek fun assign => .advance ?_
  obtain ⟨opened, left⟩ := State.opened_of_peek aligned name (by decide)
  obtain ⟨_, left'⟩ := State.opened_of_peek aligned.advance assign (by decide)
  have one := State.length_tokens_advance aligned opened
  have two := State.length_tokens_advance aligned.advance left
  have three := State.length_tokens_advance aligned.advance.advance left'
  refine .bind (thrifty_expression (s := s.advance.advance.advance) _ (by omega) calls (by omega)) ?_
  refine fun value q leads spent => .skipSemicolon fun r same _ _ => .spanFrom (.pure ?_)
  have spent' := spent_of_skip (aligned_of_leads leads) same spent
  omega

theorem thrifty_returnStatement (opened : s.tokens ≠ []) (below : 4 * s.tokens.length ≤ bound) :
    Thrifty bound 0 returnStatement s := by
  have value : Thrifty bound 0 returnValue s := by
    unfold returnValue
    refine thrifty_intro fun aligned calls enough => .peekKind ?_
    have one := State.length_tokens_advance aligned opened
    split
    case h_4 =>
      refine .advance (.bind (thrifty_expression (s := s.advance) _ (by omega) calls (by omega)) ?_)
      exact fun e q _ spent => .pure (by omega)
    all_goals exact .pure (Nat.le_refl _)
  unfold returnStatement
  refine fun calls enough => .current (.bind (value calls enough) fun value q leads spent => ?_)
  exact .skipSemicolon fun r same _ _ => .spanFrom (.pure (spent_of_skip (aligned_of_leads leads) same spent))

theorem thrifty_statement : Thrifty (4 * s.tokens.length + 2) 2 (produce .statement) s := by
  unfold produce
  refine fun calls enough => .current ?_
  split
  · exact (thrifty_letStatement (by omega)).weaken (by omega) calls enough
  · next here =>
    have opened : s.tokens ≠ [] := fun empty => by simp [State.tokens_eq_nil_iff.1 empty] at here
    exact (thrifty_returnStatement opened (by omega)).weaken (by omega) calls enough
  · refine .bind (thrifty_expression _ (by omega) calls enough) fun e q leads spent => ?_
    exact .skipSemicolon fun r same _ _ => .pure (spent_of_skip (aligned_of_leads leads) same spent)

theorem thrifty_produceExpression {above : Precedence} :
    Thrifty (4 * s.tokens.length + 1) 1 (produce (.expression above)) s := by
  unfold produce
  refine fun calls enough => .bind (thrifty_operand (by omega) calls (by omega)) fun left q leads spent => ?_
  have shorter : q.state.tokens.length ≤ s.tokens.length := shorter_of_leads leads
  exact (thrifty_continuedCall (by omega) q.calls (by omega)).mono fun e r _ spent' => by omega

theorem thrifty_continued {above : Precedence} {left : Expr} :
    Thrifty (4 * s.tokens.length) 0 (produce (.continued above left)) s := by
  unfold produce
  refine thrifty_intro fun aligned calls enough => .peekKind ?_
  split
  · next c there =>
    split
    · obtain ⟨opened, left⟩ := State.opened_of_peek aligned rfl (fun eof => by rw [eof] at there; cases there)
      have one := State.length_tokens_advance aligned opened
      refine .advance (.bind (thrifty_extend left (by omega) calls (by omega)) fun e q leads spent => ?_)
      have shorter : q.state.tokens.length ≤ s.advance.tokens.length := shorter_of_leads leads
      exact (thrifty_continuedCall (by omega) q.calls (by omega)).mono fun e r _ spent' => by omega
    · exact .pure (Nat.le_refl _)
  · exact .pure (Nat.le_refl _)

/-- At the end of the text there is no token to pay with, but then there are no statements either. -/
theorem thrifty_statements {inBlock : Bool} :
    Thrifty (4 * s.tokens.length + 3) ((Goal.statements inBlock).surcharge s.tokens.length)
      (produce (.statements inBlock)) s := by
  unfold produce
  refine thrifty_intro fun aligned calls enough => .current ?_
  dsimp only
  split
  · exact .pure (by dsimp only; omega)
  · next goes =>
    have opened : s.tokens ≠ [] := fun empty => goes (Or.inl (State.tokens_eq_nil_iff.1 empty))
    have surcharge : (Goal.statements inBlock).surcharge s.tokens.length = 4 := by
      cases eq : s.tokens with
      | nil => exact absurd eq opened
      | cons t ts => rfl
    have weight : Goal.statement.weight s < 4 * s.tokens.length + 3 := Nat.lt_succ_self _
    refine .attempt (fun holds => ⟨holds.1, weight⟩) fun _ inside read t kept => ?_
    have inner : Within s 2 inside.length t := kept
    obtain ⟨aligned, shorter, used⟩ := inner
    have closed := surcharge_statements_advance_le inBlock aligned
    have less : t.advance.tokens.length < s.tokens.length := by
      have positive := List.length_pos_iff.2 opened
      rw [State.tokens_advance aligned, List.length_tail]
      omega
    have weight' : 4 * t.advance.tokens.length + 3 < 4 * s.tokens.length + 3 := by omega
    have left : 8 * t.advance.tokens.length ≤ calls - inside.length - 1 := by omega
    refine ⟨⟨t.advance, calls - inside.length - 1⟩, rfl, ⟨aligned.advance, left⟩, ⟨Nat.le_of_lt less, ?_⟩, ?_⟩
    · rw [List.length_append, List.length_singleton]
      dsimp only
      omega
    · refine .bind (thrifty_call (.statements inBlock) weight' _ (by omega)) fun rest q _ spent => ?_
      cases read <;> exact .pure (by omega)

/-- Every production keeps within its calls and calls only goals of a smaller weight. -/
theorem produce_thrifty (goal : Goal) :
    Thrifty (goal.weight s) (goal.surcharge s.tokens.length) (produce goal) s := by
  cases goal with
  | statement => exact thrifty_statement
  | statements inBlock => exact thrifty_statements
  | expression above => exact thrifty_produceExpression
  | continued above left => exact thrifty_continued
  | moreExpressions =>
    exact thrifty_moreItems (Nat.le_refl _) (fun _ below => thrifty_expression _ below)
      fun _ below => thrifty_call .moreExpressions below
  | morePairs =>
    exact thrifty_moreItems (Nat.le_refl _) (fun _ below => thrifty_pair below)
      fun _ below => thrifty_call .morePairs below
  | moreParameters =>
    exact thrifty_moreItems (Nat.le_refl _) (fun _ _ => thrifty_parameter)
      fun _ below => thrifty_call .moreParameters below

/-- Every goal can afford its calls, and calls only goals of a smaller weight. -/
theorem keeps_thrift (goal : Goal) (s : State) (aligned : s.Aligned) :
    (produce goal s).Charts (thrift (goal.weight s)).Calls Afforded (Afforded goal s) := by
  have enough : 8 * s.tokens.length ≤ 8 * s.tokens.length + goal.surcharge s.tokens.length := Nat.le_add_right _ _
  exact (produce_thrifty goal _ (Nat.le_refl _) ⟨aligned, enough⟩).mono fun _ _ _ ends => within_of_ends ends

/-- A thrifty production comes to its end. -/
theorem Thrifty.exists_traces {m : Parser α} {extra : Nat} (h : Thrifty bound extra m s) (aligned : s.Aligned) :
    ∃ trace r t, CallTree.Traces produce trace (m s) r t ∧ Within s extra trace.length t := by
  have enough : 8 * s.tokens.length ≤ 8 * s.tokens.length + extra := Nat.le_add_right _ _
  have charts := (h _ (Nat.le_refl _) ⟨aligned, enough⟩).weaken fun _ _ allowed => allowed.1
  obtain ⟨trace, r, t, run, ends⟩ := charts.exists_traces_of_measure keeps_thrift
  exact ⟨trace, r, t, run, within_of_ends ends⟩

end Productions

end Parser

end Monkey
