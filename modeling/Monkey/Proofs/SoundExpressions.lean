import Monkey.Proofs.Discipline
import Monkey.Proofs.Lookahead
import Monkey.Proofs.ParserTotal

namespace Monkey

open Grammar

namespace Parser

/-- Nothing has been found to be wrong so far. -/
def State.Clean (s : State) : Prop := s.errors = #[]

/-- Without errors in the end there were none before, and the outcome is one that `post` allows. -/
def Honest {α : Type} (s : State) (post : α → State → Prop) (r : Except GivenUp α) (t : State) : Prop :=
  t.Aligned ∧ (t.Clean → s.Clean ∧ ∃ a, r = .ok a ∧ post a t)

/-- The rest of a list stands for the items after the first. -/
def ReadsMore (item : Symbol) (s : State) (as : List item.Node) (t : State) : Prop :=
  ∀ a ts, Reads item a ts s.tokens.tail → Reads (.items item) (a :: as) ts t.tokens.tail

/-- The node stands for the tokens up to the current one. -/
def Derived : (goal : Goal) → State → goal.Result → State → Prop
  | .statement, s, st, t => Reads .statement st s.tokens t.tokens.tail
  | .statements inBlock, s, ss, t =>
    Reads .statements ss s.tokens t.tokens ∧
      (t.tokens = [] ∨ inBlock ∧ ∃ brace rest, t.tokens = brace :: rest ∧ brace.kind = .rbrace)
  | .expression above, s, e, t =>
    ∃ q, Admits above q ∧ Reads (.expression q) e s.tokens t.tokens.tail ∧ Follows above t.tokens.tail
  | .continued above left, s, e, t =>
    ∀ ts q, Admits above q → Follows q s.tokens.tail → Reads (.expression q) left ts s.tokens.tail →
      ∃ q', Admits above q' ∧ Reads (.expression q') e ts t.tokens.tail ∧ Follows above t.tokens.tail
  | .moreExpressions, s, es, t => ReadsMore (.expression .lowest) s es t
  | .morePairs, s, ps, t => ReadsMore .pair s ps t
  | .moreParameters, s, ps, t => ReadsMore .parameter s ps t

/-- Errors are not taken back, and whoever gives up leaves one behind. -/
def honesty : Discipline (fun s : State => s) State.advance State.countLiteral where
  Calls _ := State.Aligned
  Kept goal s _ := Honest s (Derived goal s)
  Holds := State.Aligned
  Moves s _ t := t.Clean → s.Clean
  GivesUp _ _ t := t.Aligned ∧ ¬ t.Clean
  lawful.state_onward _ := rfl
  lawful.state_numbered _ := rfl
  lawful.holds_onward := State.Aligned.advance
  lawful.holds_numbered := State.Aligned.countLiteral
  lawful.refl _ clean := clean
  lawful.trans before after clean := before (after clean)
  lawful.givesUp _ ends := ends
  lawful.moves_onward _ clean := clean
  lawful.moves_numbered _ clean := clean
  lawful.fail aligned _ := ⟨aligned.fail _, fun clean => by simp [State.Clean] at clean⟩

/-- The production, started in `s`, comes to a value as `post` says if to any, if all goals are honest. -/
abbrev Sound {α : Type} (m : Parser α) (s : State) (post : α → State → Prop) : Prop := honesty.Has m s post

section Productions

variable {α : Type} {s t : State}

theorem clean_of_leads (leads : honesty.Leads s t) (clean : t.Clean) : s.Clean :=
  leads.moves.elim fun _ before => before clean

theorem ends_iff_honest {post : α → State → Prop} {trace : Trace} {r : Except GivenUp α} :
    honesty.Ends s (fun a t => t.Clean → post a t) trace r t ↔ Honest s post r t := by
  constructor
  · intro ends
    cases r with
    | ok a =>
      obtain ⟨_, rfl, aligned, before, holds⟩ := ends
      exact ⟨aligned, fun clean => ⟨before clean, a, rfl, holds clean⟩⟩
    | error e => exact ⟨ends.1, fun clean => absurd clean ends.2⟩
  · rintro ⟨aligned, holds⟩
    cases r with
    | ok a =>
      refine ⟨t, rfl, aligned, fun clean => (holds clean).1, fun clean => ?_⟩
      obtain ⟨_, _, same, made⟩ := holds clean
      cases same
      exact made
    | error e =>
      refine ⟨aligned, fun clean => ?_⟩
      obtain ⟨_, _, same, _⟩ := holds clean
      cases same

theorem sound_call (goal : Goal) : Sound (Routine.call goal) s fun a t => t.Clean → Derived goal s a t :=
  .call (fun aligned => aligned) fun _ _ _ _ kept => ends_iff_honest.2 kept

theorem sound_expression :
    Sound expression s fun e t =>
      t.Clean → Reads (.expression .lowest) e s.tokens t.tokens.tail ∧ Follows .lowest t.tokens.tail := by
  refine (sound_call (.expression .lowest)).mono fun e t _ derived clean => ?_
  obtain ⟨_, _, reads, follows⟩ := derived clean
  exact ⟨reads.loosen (Nat.zero_le _), follows⟩

theorem sound_item : Sound expression s fun e t => t.Clean → Reads (.expression .lowest) e s.tokens t.tokens.tail :=
  sound_expression.mono fun _ _ _ reads clean => (reads clean).1

theorem sound_moreItems (item : Symbol) {itemParser : Parser item.Node} {more : Parser (List item.Node)}
    (items : ∀ t, Sound itemParser t fun a u => u.Clean → Reads item a t.tokens u.tokens.tail)
    (others : ∀ t, Sound more t fun as u => u.Clean → ReadsMore item t as u) :
    Sound (moreItems itemParser more) s fun as t => t.Clean → ReadsMore item s as t := by
  refine .intro fun (aligned : s.Aligned) => ?_
  refine .moreItems (fun _ _ _ _ reads => .one reads) (fun _ => items _) fun first t comma _ readFirst => ?_
  refine (others t).mono fun rest u leads readOthers clean a ts reads => ?_
  obtain ⟨others, tokens, moved⟩ := State.tokens_of_peek_eq aligned comma (by decide)
  have readFirst := readFirst (clean_of_leads leads clean)
  rw [State.tokens_advance aligned.advance, moved] at readFirst
  rw [tokens] at reads
  exact .more reads comma (readOthers clean first _ readFirst)

theorem sound_bracketed (item : Symbol) {closing : TokenKind} {itemParser : Parser item.Node}
    {more : Parser (List item.Node)} (real : closing ≠ .eof)
    (items : ∀ t, Sound itemParser t fun a u => u.Clean → Reads item a t.tokens u.tokens.tail)
    (others : ∀ t, Sound more t fun as u => u.Clean → ReadsMore item t as u) :
    Sound (bracketed closing itemParser more) s fun as t =>
      t.Clean → Reads (.list item closing) as s.tokens.tail t.tokens.tail := by
  refine .intro fun (aligned : s.Aligned) => ?_
  refine .bracketed (fun closes _ => ?_) (items _) fun first t leads readFirst => ?_
  · obtain ⟨rest, tokens, moved⟩ := State.tokens_of_peek_eq aligned closes real
    rw [moved, tokens]
    exact .emptyList closes
  · refine (others t).mono fun rest u leads' readOthers closes clean => ?_
    obtain ⟨after, tokens, moved⟩ := State.tokens_of_peek_eq leads'.holds closes real
    have readAll := readOthers clean first _ (readFirst (clean_of_leads leads' clean))
    rw [tokens, State.tokens_advance aligned] at readAll
    rw [moved]
    exact .list readAll closes

theorem sound_parameter : Sound parameter s fun id t => t.Clean → Reads .parameter id s.tokens t.tokens.tail := by
  unfold parameter
  refine .current ?_
  split
  · next here =>
    obtain ⟨t, ts, tokens, kind⟩ := State.exists_tokens here (by decide)
    refine .pure fun _ => ?_
    rw [State.current_of_tokens tokens, tokens]
    exact .parameter _ kind
  · exact .fail .current (.unexpected .ident)

theorem sound_pair : Sound pair s fun p t => t.Clean → Reads .pair p s.tokens t.tokens.tail := by
  unfold pair
  refine .bind sound_expression fun key t leads readKey => .expectPeek fun colon => .advance ?_
  refine .bind sound_expression fun value u leads' readValue => .pure fun clean => ?_
  obtain ⟨rest, tokens, moved⟩ := State.tokens_of_peek_eq leads.holds colon (by decide)
  have before := clean_of_leads leads' clean
  have readKey := (readKey before).1
  have readValue := (readValue clean).1
  rw [tokens] at readKey
  rw [State.tokens_advance leads.holds.advance, moved] at readValue
  exact .pair readKey colon readValue

theorem sound_block (brace : s.cursor.current.kind = .lbrace) :
    Sound block s fun b u => u.Clean → Reads .block b s.tokens u.tokens.tail := by
  obtain ⟨t, ts, opened, kind⟩ := State.exists_tokens brace (by decide)
  unfold block
  refine .intro fun (aligned : s.Aligned) => .current (.advance ?_)
  refine .bind (sound_call (.statements true)) fun ss u _ derived => .spanFrom (.pure fun clean => ?_)
  obtain ⟨reads, closed⟩ := derived clean
  rw [State.tokens_advance aligned, opened] at reads
  rw [opened]
  rcases closed with cut | ⟨_, close, rest, tokens, rbrace⟩
  · rw [cut] at reads ⊢
    exact .cutBlock _ kind reads
  · rw [tokens] at reads ⊢
    exact .block _ kind reads rbrace

theorem sound_alternative :
    Sound alternative s fun b t => t.Clean → Reads .alternative b s.tokens.tail t.tokens.tail := by
  unfold alternative
  refine .intro fun (aligned : s.Aligned) => .peekKind ?_
  split
  · next there =>
    obtain ⟨rest, tokens, moved⟩ := State.tokens_of_peek_eq aligned there (by decide)
    refine .advance (.expectPeek fun brace => .bind (sound_block brace) fun b t _ readBlock => .pure fun clean => ?_)
    have readBlock := readBlock clean
    rw [State.tokens_advance aligned.advance, moved] at readBlock
    rw [tokens]
    exact .alternative there readBlock
  · exact .pure fun _ => .noAlternative

theorem sound_integer (here : s.cursor.current.kind = .int) :
    Sound integer s fun e t => t.Clean → Reads .primary e s.tokens t.tokens.tail := by
  obtain ⟨t, ts, tokens, kind⟩ := State.exists_tokens here (by decide)
  unfold integer
  refine .current ?_
  dsimp only
  split
  · next fits =>
    refine .pure fun _ => ?_
    rw [State.current_of_tokens tokens, tokens] at *
    exact .integer _ kind fits
  · exact .fail .current .tooLarge

theorem sound_grouped (here : s.cursor.current.kind = .lparen) :
    Sound grouped s fun e u => u.Clean → Reads .primary e s.tokens u.tokens.tail := by
  obtain ⟨t, ts, opened, paren⟩ := State.exists_tokens here (by decide)
  unfold grouped
  refine .intro fun (aligned : s.Aligned) => .advance (.bind sound_expression fun e u leads readInner => ?_)
  refine .expectPeek fun closes => .pure fun clean => ?_
  obtain ⟨rest, tokens, moved⟩ := State.tokens_of_peek_eq leads.holds closes (by decide)
  have readInner := (readInner clean).1
  rw [State.tokens_advance aligned, opened, tokens] at readInner
  rw [moved, opened]
  exact .grouped paren readInner closes

theorem sound_conditional (here : s.cursor.current.kind = .ifWord) :
    Sound conditional s fun e t => t.Clean → Reads .primary e s.tokens t.tokens.tail := by
  unfold conditional
  refine .intro fun (aligned : s.Aligned) => .current (.expectPeek fun lparen => .advance ?_)
  refine .bind sound_expression fun c t leads readCondition => .expectPeek fun rparen => .expectPeek fun lbrace => ?_
  refine .bind (sound_block lbrace) fun b u leads' readBlock => ?_
  refine .bind sound_alternative fun a v leads'' readAlternative => .spanFrom (.pure fun clean => ?_)
  have atBlock := clean_of_leads leads'' clean
  have atCondition := clean_of_leads leads' atBlock
  have readCondition := (readCondition atCondition).1
  have readBlock := readBlock atBlock
  obtain ⟨rest, opened, moved⟩ := State.tokens_of_peek_eq aligned lparen (by decide)
  obtain ⟨rest', tokens, moved'⟩ := State.tokens_of_peek_eq leads.holds rparen (by decide)
  rw [State.tokens_advance aligned.advance, moved, tokens] at readCondition
  rw [State.tokens_advance leads.holds.advance, moved'] at readBlock
  rw [opened]
  exact .cond _ here lparen readCondition rparen readBlock (readAlternative clean)

theorem sound_function (here : s.cursor.current.kind = .fnWord) :
    Sound function s fun e t => t.Clean → Reads .primary e s.tokens t.tokens.tail := by
  have parameters (t : State) : Sound (bracketed .rparen parameter moreParameters) t fun ps u =>
      u.Clean → Reads (.list .parameter .rparen) ps t.tokens.tail u.tokens.tail :=
    sound_bracketed .parameter (by decide) (fun _ => sound_parameter) fun _ => sound_call .moreParameters
  unfold function
  refine .intro fun (aligned : s.Aligned) => .current (.expectPeek fun lparen => ?_)
  refine .bind (parameters _) fun ps t leads readParameters => .expectPeek fun lbrace => ?_
  refine .bind (sound_block lbrace) fun b u leads' readBlock => .spanFrom (.freshLiteral (.pure fun clean => ?_))
  have before := clean_of_leads leads' clean
  have readParameters := readParameters before
  have readBlock := readBlock clean
  obtain ⟨rest, opened, moved⟩ := State.tokens_of_peek_eq aligned lparen (by decide)
  obtain ⟨rest', tokens, moved'⟩ := State.tokens_of_peek_eq leads.holds lbrace (by decide)
  rw [moved, tokens] at readParameters
  rw [moved'] at readBlock
  rw [State.tokens_countLiteral, opened]
  exact .function _ here lparen readParameters readBlock

theorem sound_expressionList {closing : TokenKind} (real : closing ≠ .eof) :
    Sound (expressionList closing) s fun es t =>
      t.Clean → Reads (.list (.expression .lowest) closing) es s.tokens.tail t.tokens.tail :=
  sound_bracketed (.expression .lowest) real (fun _ => sound_item) fun _ => sound_call .moreExpressions

theorem sound_array (here : s.cursor.current.kind = .lbracket) :
    Sound array s fun e t => t.Clean → Reads .primary e s.tokens t.tokens.tail := by
  obtain ⟨bracket, ts, opened, lbracket⟩ := State.exists_tokens here (by decide)
  unfold array
  refine .current (.bind (sound_expressionList (by decide)) fun es t _ readElements => ?_)
  refine .spanFrom (.pure fun clean => ?_)
  have readElements := readElements clean
  rw [opened] at readElements ⊢
  exact .array _ lbracket readElements

theorem sound_hash (here : s.cursor.current.kind = .lbrace) :
    Sound hash s fun e t => t.Clean → Reads .primary e s.tokens t.tokens.tail := by
  obtain ⟨brace, ts, opened, lbrace⟩ := State.exists_tokens here (by decide)
  have pairs : Sound (bracketed .rbrace pair morePairs) s fun ps t =>
      t.Clean → Reads (.list .pair .rbrace) ps s.tokens.tail t.tokens.tail :=
    sound_bracketed .pair (by decide) (fun _ => sound_pair) fun _ => sound_call .morePairs
  unfold hash
  refine .current (.bind pairs fun ps t _ readPairs => .spanFrom (.pure fun clean => ?_))
  have readPairs := readPairs clean
  rw [opened] at readPairs ⊢
  exact .hash _ lbrace readPairs

theorem sound_unary {op : UnaryOp} {kind : TokenKind} (here : s.cursor.current.kind = kind)
    (sign : op = .not ∧ kind = .bang ∨ op = .neg ∧ kind = .minus) :
    Sound (unary op) s fun e t =>
      t.Clean → Reads (.expression .unary) e s.tokens t.tokens.tail ∧ Follows .unary t.tokens.tail := by
  have real : kind ≠ .eof := by rcases sign with ⟨_, rfl⟩ | ⟨_, rfl⟩ <;> decide
  obtain ⟨token, ts, opened, tokenKind⟩ := State.exists_tokens here real
  unfold unary
  refine .intro fun (aligned : s.Aligned) => .current (.advance ?_)
  refine .bind (sound_call (.expression .unary)) fun e t _ derived => .spanFrom (.pure fun clean => ?_)
  obtain ⟨q, admits, reads, follows⟩ := derived clean
  have operand : Reads (.expression .unary) e s.advance.tokens t.tokens.tail := by
    rcases admits with tighter | rfl | rfl
    · exact reads.loosen (Nat.le_of_lt tighter)
    · exact reads
    · exact reads.loosen (by decide)
  rw [State.tokens_advance aligned, opened] at operand
  rw [opened]
  refine ⟨?_, follows⟩
  rcases sign with ⟨rfl, rfl⟩ | ⟨rfl, rfl⟩
  · exact .not _ tokenKind operand
  · exact .neg _ tokenKind operand

/-- An operand has the level of calls, or that of signs with no call or index after it. -/
def ReadsOperand (s : State) (e : Expr) (t : State) : Prop :=
  ∃ q, (q = .unary ∨ q = .call) ∧ Reads (.expression q) e s.tokens t.tokens.tail ∧ Follows q t.tokens.tail

theorem sound_ofPrimary {m : Parser Expr} (h : Sound m s fun e t => t.Clean → Reads .primary e s.tokens t.tokens.tail) :
    Sound m s fun e t => t.Clean → ReadsOperand s e t :=
  h.mono fun _ _ _ reads clean => ⟨.call, .inr rfl, .primary (reads clean), follows_call _⟩

theorem sound_word {kind : TokenKind} {e : Expr} (here : s.cursor.current.kind = kind) (real : kind ≠ .eof)
    (reads : ∀ rest, s.cursor.current.kind = kind → Reads .primary e (s.cursor.current :: rest) rest) :
    Sound (pure e) s fun e t => t.Clean → Reads .primary e s.tokens t.tokens.tail := by
  obtain ⟨t, ts, tokens, _⟩ := State.exists_tokens here real
  refine .pure fun _ => ?_
  rw [tokens, ← State.current_of_tokens tokens]
  exact reads ts here

theorem sound_operand : Sound operand s fun e t => t.Clean → ReadsOperand s e t := by
  unfold operand
  refine .current ?_
  split
  · next here => exact sound_ofPrimary (sound_word here (by decide) fun _ => .name _)
  · next here => exact sound_ofPrimary (sound_integer here)
  · next here => exact sound_ofPrimary (sound_word here (by decide) fun _ => .str _)
  · next here => exact sound_ofPrimary (sound_word here (by decide) fun _ => .trueWord _)
  · next here => exact sound_ofPrimary (sound_word here (by decide) fun _ => .falseWord _)
  · next here => exact (sound_unary here (.inl ⟨rfl, rfl⟩)).mono fun _ _ _ reads clean => ⟨_, .inl rfl, reads clean⟩
  · next here => exact (sound_unary here (.inr ⟨rfl, rfl⟩)).mono fun _ _ _ reads clean => ⟨_, .inl rfl, reads clean⟩
  · next here => exact sound_ofPrimary (sound_grouped here)
  · next here => exact sound_ofPrimary (sound_conditional here)
  · next here => exact sound_ofPrimary (sound_function here)
  · next here => exact sound_ofPrimary (sound_array here)
  · next here => exact sound_ofPrimary (sound_hash here)
  · exact .fail .current .noExpression

theorem follows_of_peek {p : Precedence}
    (h : ∀ c, Continuation.ofKind? s.cursor.peek.kind = some c → ¬ p < c.precedence) : Follows p s.tokens.tail := by
  intro t next c kind
  match eq : s.tokens with
  | [] | [_] => simp [eq] at next
  | _ :: u :: rest =>
    have same : t = u := by simpa [eq, eq_comm] using next
    rw [same, ← State.peek_of_tokens eq] at kind
    exact h c kind

/-- The tokens from `ts` to `s` stand for `left`; then those from `ts` to `t` stand for the extended expression. -/
def ReadsExtended (c : Continuation) (left : Expr) (s : State) (e : Expr) (t : State) : Prop :=
  ∀ ts, Reads (.expression c.precedence) left ts s.tokens →
    Reads (.expression c.precedence) e ts t.tokens.tail ∧ Follows c.precedence t.tokens.tail

theorem sound_extend {left : Expr} {c : Continuation} {t : Token} {rest : List Token}
    (opened : s.tokens = t :: rest) (kind : Continuation.ofKind? t.kind = some c) :
    Sound (extend left c) s fun e u => u.Clean → ReadsExtended c left s e u := by
  unfold extend
  refine .intro fun (aligned : s.Aligned) => ?_
  cases c with
  | binary op =>
    refine .advance (.bind (sound_call (.expression op.precedence)) fun right u _ derived => ?_)
    refine .pure fun clean ts readLeft => ?_
    obtain ⟨q, admits, readRight, follows⟩ := derived clean
    have tighter : op.precedence < q := by
      rcases admits with lt | rfl | rfl
      · exact lt
      · exact op.lt_unary
      · exact op.lt_call
    rw [State.tokens_advance aligned, opened] at readRight
    rw [opened] at readLeft
    exact ⟨readLeft.operation _ kind tighter readRight, follows⟩
  | call =>
    have paren : t.kind = .lparen := kind_of_call kind
    refine .bind (sound_expressionList (by decide)) fun arguments u _ readArguments => ?_
    refine .spanFrom (.pure fun clean ts readLeft => ?_)
    have readArguments := readArguments clean
    rw [opened] at readArguments readLeft
    exact ⟨.call _ readLeft paren readArguments, follows_call _⟩
  | index =>
    have bracket : t.kind = .lbracket := kind_of_index kind
    refine .advance (.bind sound_expression fun i u leads readIndex => .expectPeek fun closes => ?_)
    refine .spanFrom (.pure fun clean ts readLeft => ?_)
    obtain ⟨rest', tokens, moved⟩ := State.tokens_of_peek_eq leads.holds closes (by decide)
    have readIndex := (readIndex clean).1
    rw [State.tokens_advance aligned, opened, tokens] at readIndex
    rw [opened] at readLeft
    rw [moved]
    exact ⟨.index _ readLeft bracket readIndex closes, follows_call _⟩

theorem sound_produceExpression {above : Precedence} :
    Sound (produce (.expression above)) s fun e t => t.Clean → Derived (.expression above) s e t := by
  unfold produce
  refine .bind sound_operand fun left t _ readLeft => ?_
  refine (sound_call (.continued above left)).mono fun e u leads derived clean => ?_
  obtain ⟨q, level, reads, follows⟩ := readLeft (clean_of_leads leads clean)
  exact derived clean s.tokens q (.inr level) follows reads

theorem sound_continued {above : Precedence} {left : Expr} :
    Sound (produce (.continued above left)) s fun e t => t.Clean → Derived (.continued above left) s e t := by
  unfold produce
  refine .intro fun (aligned : s.Aligned) => .peekKind ?_
  split
  · next c kind =>
    obtain ⟨rest, tokens⟩ := State.tokens_of_peek aligned (fun eof => by rw [eof] at kind; cases kind)
    have moved : s.advance.tokens = s.cursor.peek :: rest := by rw [State.tokens_advance aligned, tokens]; rfl
    split
    · next tighter =>
      refine .advance (.bind (sound_extend moved kind) fun e t _ extended => ?_)
      refine (sound_call (.continued above e)).mono fun e' u leads derived clean ts q _ follows readLeft => ?_
      rw [tokens, List.tail_cons] at follows readLeft
      obtain ⟨reads, follows'⟩ :=
        extended (clean_of_leads leads clean) ts (moved ▸ follows.reads kind readLeft)
      exact derived clean ts c.precedence (.inl tighter) follows' reads
    · next weaker =>
      refine .pure fun _ ts q admits _ readLeft => ⟨q, admits, readLeft, follows_of_peek ?_⟩
      intro c' kind'
      cases kind.symm.trans kind'
      exact weaker
  · next kind =>
    refine .pure fun _ ts q admits _ readLeft => ⟨q, admits, readLeft, follows_of_peek ?_⟩
    intro c kind'
    cases kind.symm.trans kind'

end Productions

end Parser

end Monkey
