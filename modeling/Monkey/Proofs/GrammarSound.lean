import Monkey.Proofs.SoundExpressions

namespace Monkey

open Grammar

namespace Parser

section Productions

variable {s : State}

theorem ends_skipSemicolon (aligned : s.Aligned) (follows : Follows .lowest s.tokens.tail) :
    Ends s.tokens.tail s.skipSemicolon.tokens.tail := by
  unfold State.skipSemicolon
  split
  · next semicolon =>
    obtain ⟨rest, tokens⟩ := State.tokens_of_peek aligned (by rw [semicolon]; decide)
    rw [State.tokens_advance aligned, tokens]
    exact .semicolon semicolon
  · exact .nothing follows.not_carriesOn

theorem sound_letStatement (here : s.cursor.current.kind = .letWord) :
    Sound letStatement s fun st t => t.Clean → Reads .statement st s.tokens t.tokens.tail := by
  unfold letStatement
  refine .intro fun (aligned : s.Aligned) => .current (.expectPeek fun ident => .current (.expectPeek fun assign => ?_))
  refine .advance (.bind sound_expression fun value t leads readValue => ?_)
  refine .skipSemicolon fun u _ skipped leads' => .spanFrom (.pure fun clean => ?_)
  obtain ⟨readValue, follows⟩ := readValue (clean_of_leads leads' clean)
  have ends := ends_skipSemicolon leads.holds follows
  obtain ⟨rest, opened, moved⟩ := State.tokens_of_peek_eq aligned ident (by decide)
  obtain ⟨rest', tokens, moved'⟩ := State.tokens_of_peek_eq aligned.advance assign (by decide)
  rw [State.tokens_advance aligned.advance.advance, moved'] at readValue
  rw [← skipped] at ends
  rw [moved] at tokens
  rw [opened, (List.cons.inj tokens).2, State.current_of_tokens moved]
  exact .bind _ _ here ident assign readValue ends

/-- After `return` the value and the end of the statement are left. -/
def ReadsReturn (s : State) (value : Option Expr) (t : State) : Prop :=
  ∀ word ts span, s.tokens = word :: ts → word.kind = .returnWord →
    Reads .statement (.ret value span) s.tokens t.skipSemicolon.tokens.tail

theorem sound_returnValue : Sound returnValue s fun value t => t.Clean → ReadsReturn s value t := by
  refine .intro fun (aligned : s.Aligned) => ?_
  have last (more : s.cursor.peek.kind = .rbrace ∨ s.cursor.peek.kind = .eof) : ReadsReturn s none s := by
    intro word ts span opened returnWord
    have stay : s.skipSemicolon = s := by
      unfold State.skipSemicolon
      rw [if_neg (by rcases more with h | h <;> simp [h])]
    rw [stay, opened]
    refine .lastRet span returnWord fun t' next => ?_
    match ts with
    | [] => cases next
    | u :: rest =>
      cases next
      have peek := State.peek_of_tokens opened
      have kept : s.cursor.peek.kind ≠ .eof := fun eof => by
        have empty := (State.tail_tokens_eq_nil_iff aligned).2 eof
        simp [opened] at empty
      rw [← peek]
      exact more.resolve_right kept
  unfold returnValue
  refine .peekKind ?_
  split
  · next semicolon =>
    refine .pure fun _ word ts span opened returnWord => ?_
    obtain ⟨rest, tokens, moved⟩ := State.tokens_of_peek_eq aligned semicolon (by decide)
    have skipped : s.skipSemicolon.tokens.tail = rest := by
      unfold State.skipSemicolon
      rw [if_pos semicolon, moved, List.tail_cons]
    rw [skipped, tokens]
    exact .bareRet span (State.current_of_tokens opened ▸ returnWord) semicolon
  · next rbrace => exact .pure fun _ => last (.inl rbrace)
  · next eof => exact .pure fun _ => last (.inr eof)
  · refine .advance (.bind sound_expression fun e t leads readValue => .pure ?_)
    intro clean word ts span opened returnWord
    obtain ⟨readValue, follows⟩ := readValue clean
    have ends := ends_skipSemicolon leads.holds follows
    rw [State.tokens_advance aligned, opened] at readValue
    rw [opened]
    exact .ret span returnWord readValue ends

theorem sound_returnStatement (here : s.cursor.current.kind = .returnWord) :
    Sound returnStatement s fun st t => t.Clean → Reads .statement st s.tokens t.tokens.tail := by
  obtain ⟨word, ts, opened, returnWord⟩ := State.exists_tokens here (by decide)
  unfold returnStatement
  refine .current (.bind sound_returnValue fun value t _ readReturn => .skipSemicolon fun u _ skipped leads => ?_)
  refine .spanFrom (.pure fun clean => ?_)
  have reads := readReturn (clean_of_leads leads clean) word ts (s.cursor.current.span.merge u.cursor.current.span)
    opened returnWord
  rwa [← skipped] at reads

theorem sound_statement : Sound (produce .statement) s fun st t => t.Clean → Derived .statement s st t := by
  unfold produce
  refine .current ?_
  split
  · next here => exact sound_letStatement here
  · next here => exact sound_returnStatement here
  · refine .bind sound_expression fun e t leads readValue => ?_
    refine .skipSemicolon fun u _ skipped leads' => .pure fun clean => ?_
    obtain ⟨readValue, follows⟩ := readValue (clean_of_leads leads' clean)
    have ends := ends_skipSemicolon leads.holds follows
    rw [← skipped] at ends
    exact .expr readValue ends

theorem sound_statements {inBlock : Bool} :
    Sound (produce (.statements inBlock)) s fun ss t => t.Clean → Derived (.statements inBlock) s ss t := by
  unfold produce
  refine .current ?_
  dsimp only
  split
  · next ends =>
    refine .pure fun _ => ⟨.noStatements, ?_⟩
    rcases ends with eof | ⟨inBlock, rbrace⟩
    · exact .inl (State.tokens_eq_nil_iff.2 eof)
    · obtain ⟨brace, rest, tokens, kind⟩ := State.exists_tokens rbrace (by decide)
      exact .inr ⟨inBlock, brace, rest, tokens, kind⟩
  · refine .attempt (fun aligned => aligned) fun _ inside read t met => ?_
    obtain ⟨aligned, honest⟩ := met
    refine ⟨t.advance, rfl, aligned.advance, fun clean => (honest clean).1, ?_⟩
    refine .bind (sound_call (.statements inBlock)) fun rest u leads derived => ?_
    have all (st : Statement) (first : read = .ok st) (clean : u.Clean) :
        Derived (.statements inBlock) s (st :: rest) u := by
      have before := clean_of_leads leads clean
      obtain ⟨_, st', outcome, readFirst⟩ := honest before
      cases first.symm.trans outcome
      obtain ⟨readRest, closed⟩ := derived clean
      rw [State.tokens_advance aligned] at readRest
      exact ⟨.moreStatements readFirst readRest, closed⟩
    cases read with
    | ok st => exact .pure (all st rfl)
    | error e =>
      refine .pure fun clean => ?_
      have before := clean_of_leads leads clean
      obtain ⟨_, _, outcome, _⟩ := honest before
      cases outcome

/-- Every production is honest about its derivation. -/
theorem produce_sound (goal : Goal) : Sound (produce goal) s fun a t => t.Clean → Derived goal s a t := by
  cases goal with
  | statement => exact sound_statement
  | statements inBlock => exact sound_statements
  | expression above => exact sound_produceExpression
  | continued above left => exact sound_continued
  | moreExpressions =>
    exact sound_moreItems (.expression .lowest) (fun _ => sound_item) fun _ => sound_call .moreExpressions
  | morePairs => exact sound_moreItems .pair (fun _ => sound_pair) fun _ => sound_call .morePairs
  | moreParameters =>
    exact sound_moreItems .parameter (fun _ => sound_parameter) fun _ => sound_call .moreParameters

/-- Every goal keeps what is known of its calls. -/
theorem keeps_honesty (goal : Goal) (s : State) (aligned : s.Aligned) :
    (produce goal s).Charts honesty.Calls honesty.Kept (honesty.Kept goal s) :=
  (produce_sound goal aligned).mono fun _ _ _ ends => ends_iff_honest.1 ends

end Productions

end Parser

/-- The tokens of a text that is read without errors can be read as the program. -/
theorem reads_parse {source : String} (clean : (parse source).errors = []) :
    Reads .statements (parse source).program.statements (Lexer.ofString source).tokens [] := by
  obtain ⟨ss, t, returns, parsed⟩ := exists_returns_parse source
  rw [parsed] at clean ⊢
  obtain ⟨trace, run⟩ := returns.exists_traces
  have start : Parser.Sound (Parser.statements false) (.start source) fun ss t =>
      t.Clean → Parser.Derived (.statements false) (.start source) ss t :=
    Parser.sound_call (.statements false)
  have honest := Parser.ends_iff_honest.1 (run.charts Parser.keeps_honesty (start (Parser.State.aligned_start source)))
  have noErrors : t.Clean := Array.toList_eq_nil_iff.1 clean
  obtain ⟨_, _, outcome, reads, closed⟩ := honest.2 noErrors
  cases outcome
  have whole : t.tokens = [] := closed.resolve_right fun inBlock => nomatch inBlock.1
  rwa [Parser.State.tokens_start, whole] at reads

/-- A text that is read without errors stands, token by token, for the program. -/
theorem parse_derives (source : String) (clean : (parse source).errors = []) :
    Grammar.Derives (lex source).dropLast (parse source).program := by
  rw [dropLast_lex]
  exact reads_parse clean

theorem parse_derives_callIndex :
    (parse "let f = fn(x) \x7b x - 1 - 2 \x7d f([1])[0] == !true; if (f) \x7b return").errors = [] ∧
      Grammar.Derives (lex "let f = fn(x) \x7b x - 1 - 2 \x7d f([1])[0] == !true; if (f) \x7b return").dropLast
        (parse "let f = fn(x) \x7b x - 1 - 2 \x7d f([1])[0] == !true; if (f) \x7b return").program := by
  have clean : (parse "let f = fn(x) \x7b x - 1 - 2 \x7d f([1])[0] == !true; if (f) \x7b return").errors = [] := by
    decide +kernel
  exact ⟨clean, parse_derives _ clean⟩

end Monkey
