import Monkey.Proofs.Discipline
import Monkey.Proofs.RuleTable
import Monkey.Proofs.WrittenPhrases

namespace Monkey

namespace Outline

variable {above p : Precedence} {op : BinaryOp} {o l r : Outline} {span : Span}

/-- The operators outside brackets bind more tightly than `above` and group to the left. -/
def Fits (above : Precedence) (o : Outline) : Prop := ∀ x ∈ o.infixes, x.Fits above

/-- Nothing on top binds less tightly than `p`. -/
def Holds (p : Precedence) (o : Outline) : Prop := ∀ q ∈ o.top?, ¬ q < p

theorem Fits.mono (h : o.Fits p) (lt : above < p) : o.Fits above :=
  fun x mem => { h x mem with above := Nat.lt_trans lt (h x mem).above }

/-- What is read to the right of an operator binds more tightly than the operator. -/
theorem Fits.lt_top (h : o.Fits op.precedence) : ∀ q ∈ o.top?, op.precedence < q := by
  cases o with
  | closed | grouped => exact nofun
  | unary => rintro _ ⟨⟩; exact op.lt_unary
  | binary op' l r => rintro _ ⟨⟩; exact (h ⟨op', l, r⟩ (.head _)).above
  | call | index => rintro _ ⟨⟩; exact op.lt_call

theorem Fits.binary (left : l.Fits above) (lt : above < op.precedence) (holds : l.Holds op.precedence)
    (right : r.Fits op.precedence) : (binary op l r span).Fits above := by
  intro x mem
  rcases List.mem_cons.1 mem with rfl | mem
  · exact ⟨lt, holds, right.lt_top⟩
  · rcases List.mem_append.1 mem with inLeft | inRight
    · exact left x inLeft
    · exact right.mono lt x inRight

/-- No binary operator binds more tightly than a sign in front. -/
theorem Fits.infixes_eq_nil (h : o.Fits .unary) : o.infixes = [] := by
  refine List.eq_nil_iff_forall_not_mem.2 fun x mem => ?_
  exact Nat.lt_irrefl _ (Nat.lt_trans (h x mem).above x.op.lt_unary)

end Outline

namespace Parser

open CallTree (Returns)

/-- The cursor of the one state is where that of the other is, or further on. -/
def State.MovesTo (s t : State) : Prop := ∃ us, s.cursor.Row t.cursor (s.cursor.current :: us)

/-- The tokens from the current one of the one state to that of the other are those of the phrase. -/
def Stands (p : Phrase) (a : p.Node) (s t : State) : Prop := ∃ ts, p.Written a ts ∧ s.cursor.Row t.cursor ts

/-- The tokens behind the current one carry on every list of which the first item stands before them. -/
def CarriesOn (item : Phrase) (s : State) (as : List item.Node) (t : State) : Prop :=
  ∃ us, s.cursor.Row t.cursor (s.cursor.current :: us) ∧
    ∀ a ts, item.Written a ts → (Phrase.items item).Written (a :: as) (ts ++ us)

/-- The tokens from `s` to `t` are those of the expression. Its operators bind more tightly than `above`, and the token
that comes next does not. -/
def Finished (above : Precedence) (s : State) (e : Expr) (t : State) : Prop :=
  ∃ o : Outline, o.expr = e ∧ Stands .outline o s t ∧ o.Fits above ∧ ¬ above < t.cursor.peek.kind.precedence

/-- The tokens from `s` to `t` are those of an expression without binary operators outside brackets, to which the token
that comes next can be taken. -/
def StandsAsOperand (s : State) (e : Expr) (t : State) : Prop :=
  ∃ o : Outline, o.expr = e ∧ Stands .outline o s t ∧ o.infixes = [] ∧ o.Holds t.cursor.peek.kind.precedence

/-- Taken to `left`, the tokens from `s` to `t` are those of the expression. -/
def Grown (c : Continuation) (left : Expr) (s : State) (e : Expr) (t : State) : Prop :=
  ∃ us, s.cursor.Row t.cursor us ∧ ∀ (above : Precedence) (o : Outline) (ts : List Token), o.expr = left →
    Phrase.outline.Written o ts → o.Fits above → above < c.precedence → o.Holds c.precedence →
    ∃ o' : Outline, o'.expr = e ∧ Phrase.outline.Written o' (ts ++ us) ∧ o'.Fits above ∧
      o'.Holds t.cursor.peek.kind.precedence

/-- What the goal has read when it comes to its end with a value. -/
def Contract : (goal : Goal) → State → goal.Result → State → Prop
  | .statement, _, _, _ => True
  | .statements inBlock, _, _, t => t.cursor.current.kind = .eof ∨ inBlock ∧ t.cursor.current.kind = .rbrace
  | .expression above, s, e, t => Finished above s e t
  | .continued above left, s, e, t =>
    ∀ (h : State) (o : Outline), o.expr = left → Stands .outline o h s → o.Fits above →
      o.Holds s.cursor.peek.kind.precedence → Finished above h e t
  | .moreExpressions, s, es, t => CarriesOn .expression s es t
  | .morePairs, s, ps, t => CarriesOn .pair s ps t
  | .moreParameters, s, ids, t => CarriesOn .parameter s ids t

/-- Whatever the outcome, the cursor has not moved back; a value is a good one. -/
def Passes {α : Type} (s : State) (good : α → State → Prop) (r : Except GivenUp α) (t : State) : Prop :=
  s.MovesTo t ∧ ∀ a, r = .ok a → good a t

theorem State.MovesTo.refl (s : State) : s.MovesTo s := ⟨[], .stay _⟩

theorem State.MovesTo.trans {s t u : State} (first : s.MovesTo t) (second : t.MovesTo u) : s.MovesTo u := by
  obtain ⟨ts, first⟩ := first
  obtain ⟨us, second⟩ := second
  exact ⟨ts ++ us, first.trans second⟩

/-- The cursor does not move back. Of a call it is known how it returns, and that it keeps its contract. -/
def delivery : Discipline (fun s : State => s) State.advance State.countLiteral where
  Calls _ _ := True
  Kept goal s _ r t := Passes s (Contract goal s) r t ∧ Returns produce (produce goal s) r t
  Holds _ := True
  Moves s _ t := s.MovesTo t
  GivesUp s _ t := s.MovesTo t
  lawful.state_onward _ := rfl
  lawful.state_numbered _ := rfl
  lawful.holds_onward _ := trivial
  lawful.holds_numbered _ := trivial
  lawful.refl := State.MovesTo.refl
  lawful.trans := State.MovesTo.trans
  lawful.givesUp := State.MovesTo.trans
  lawful.moves_onward _ := ⟨_, .move (.stay _)⟩
  lawful.moves_numbered _ := ⟨[], .stay _⟩
  lawful.fail _ _ := ⟨[], .stay _⟩

/-- The production, started in `s`, comes to a good value if it comes to one, as long as its calls keep their
contracts. -/
abbrev Delivers {α : Type} (m : Parser α) (s : State) (good : α → State → Prop) : Prop := delivery.Has m s good

section Productions

variable {α : Type} {s : State}

theorem ends_iff_passes {good : α → State → Prop} {trace : Trace} {r : Except GivenUp α} {t : State} :
    delivery.Ends s good trace r t ↔ Passes s good r t :=
  Discipline.ends_iff (and_iff_right trivial) .rfl

theorem delivers_call (goal : Goal) :
    Delivers (Routine.call goal) s fun a t =>
      s.MovesTo t ∧ Contract goal s a t ∧ Returns produce (produce goal s) (.ok a) t := by
  refine .call (fun _ => trivial) fun _ inside r t kept => ends_iff_passes.2 ⟨kept.1.1, fun a same => ?_⟩
  cases same
  exact ⟨kept.1.1, kept.1.2 a rfl, kept.2⟩

theorem delivers_expression : Delivers expression s (Stands .expression · s ·) := by
  refine (delivers_call (.expression .lowest)).mono fun e t _ met => ?_
  obtain ⟨_, ⟨o, rfl, ⟨ts, written, row⟩, _⟩, _⟩ := met
  exact ⟨ts, .expression written, row⟩

theorem delivers_moreExpressions : Delivers moreExpressions s (CarriesOn .expression s) :=
  (delivers_call .moreExpressions).mono fun _ _ _ met => met.2.1

theorem delivers_morePairs : Delivers morePairs s (CarriesOn .pair s) :=
  (delivers_call .morePairs).mono fun _ _ _ met => met.2.1

theorem delivers_moreParameters : Delivers moreParameters s (CarriesOn .parameter s) :=
  (delivers_call .moreParameters).mono fun _ _ _ met => met.2.1

theorem delivers_parameter : Delivers parameter s (Stands .parameter · s ·) := by
  unfold parameter
  refine .current ?_
  split
  · next ident => exact .pure ⟨_, .parameter _ ident, .stay _⟩
  · exact .fail .current (.unexpected .ident)

theorem delivers_pair : Delivers pair s (Stands .pair · s ·) := by
  unfold pair
  refine .bind delivers_expression fun k t _ ⟨ts, key, row⟩ => .expectPeek fun colon => ?_
  refine .advance (.bind delivers_expression fun v u _ ⟨us, value, row'⟩ => .pure ?_)
  exact ⟨_, .pair key colon value, row.append (.move row')⟩

theorem delivers_moreItems (item : Phrase) {read : Parser item.Node} {more : Parser (List item.Node)}
    (items : ∀ t, Delivers read t (Stands item · t ·)) (others : ∀ t, Delivers more t (CarriesOn item t)) :
    Delivers (moreItems read more) s (CarriesOn item s) := by
  refine .moreItems (fun _ => ?_) (fun _ => items _) fun b t comma _ ⟨us, second, row⟩ => ?_
  · refine ⟨[], .stay _, fun a ts first => ?_⟩
    rw [List.append_nil]
    exact .one first
  · refine (others t).mono fun bs u _ ⟨vs, row', rest⟩ => ?_
    exact ⟨_, .move (.move (row.trans row')), fun a ts first => .more first comma (rest b us second)⟩

theorem delivers_bracketed (item : Phrase) {opening closing : TokenKind} {read : Parser item.Node}
    {more : Parser (List item.Node)} (opens : s.cursor.current.kind = opening)
    (items : ∀ t, Delivers read t (Stands item · t ·)) (others : ∀ t, Delivers more t (CarriesOn item t)) :
    Delivers (bracketed closing read more) s (Stands (.list item opening closing) · s ·) := by
  refine .bracketed (fun closes => ?_) (items _) fun a t _ ⟨ts, first, row⟩ => ?_
  · exact ⟨_, .emptyList opens closes, .move (.stay _)⟩
  · refine (others t).mono fun as u _ ⟨us, row', rest⟩ closes => ?_
    exact ⟨_, .list opens (rest a ts first) closes, .move (row.trans row').next⟩

theorem delivers_expressionList {opening closing : TokenKind} (opens : s.cursor.current.kind = opening) :
    Delivers (expressionList closing) s (Stands (.list .expression opening closing) · s ·) :=
  delivers_bracketed .expression opens (fun _ => delivers_expression)
    fun _ => delivers_moreExpressions

theorem delivers_block (brace : s.cursor.current.kind = .lbrace) :
    Delivers block s fun b t => ∃ ts, BlockText b ts ∧ s.cursor.Row t.cursor ts := by
  unfold block
  refine .current (.advance (.bind (delivers_call (.statements true)) fun ss t _ met => ?_))
  obtain ⟨⟨us, row⟩, closed, returns⟩ := met
  refine .spanFrom (.pure ⟨_, .mk _ brace returns row ?_, .move row⟩)
  exact closed.imp_right And.right

theorem delivers_alternative :
    Delivers alternative s fun a t => ∃ us, AlternativeText a us ∧ s.cursor.Row t.cursor (s.cursor.current :: us) := by
  unfold alternative
  refine .peekKind ?_
  split
  · next elseWord =>
    refine .advance (.expectPeek fun brace => ?_)
    refine .bind (delivers_block brace) fun b t _ ⟨ts, text, row⟩ => .pure ?_
    exact ⟨_, .some elseWord text, .move (.move row)⟩
  · exact .pure ⟨[], .none, .stay _⟩

theorem delivers_grouped (paren : s.cursor.current.kind = .lparen) :
    Delivers grouped s fun e t => Stands .outline (.grouped e) s t := by
  unfold grouped
  refine .advance (.bind delivers_expression fun e t _ ⟨ts, inner, row⟩ => ?_)
  refine .expectPeek fun closes => .pure ⟨_, .grouped paren inner closes, .move row.next⟩

theorem delivers_conditional (ifWord : s.cursor.current.kind = .ifWord) :
    Delivers conditional s (Stands .closed · s ·) := by
  unfold conditional
  refine .current (.expectPeek fun lparen => .advance ?_)
  refine .bind delivers_expression fun c t _ ⟨ts, condition, row⟩ => .expectPeek fun rparen => ?_
  refine .expectPeek fun brace => .bind (delivers_block brace) fun b u _ ⟨us, text, row'⟩ => ?_
  refine .bind delivers_alternative fun a v _ ⟨vs, otherwise, row''⟩ => .spanFrom (.pure ?_)
  have rest := row.append (.move (row'.trans row''))
  exact ⟨_, .cond _ ifWord lparen condition rparen text otherwise, .move (.move rest)⟩

theorem delivers_function (fnWord : s.cursor.current.kind = .fnWord) : Delivers function s (Stands .closed · s ·) := by
  unfold function
  refine .current (.expectPeek fun lparen => ?_)
  refine .bind (delivers_bracketed .parameter lparen (fun _ => delivers_parameter)
    fun _ => delivers_moreParameters) fun ids t _ ⟨ts, parameters, row⟩ => ?_
  refine .expectPeek fun brace => .bind (delivers_block brace) fun b u _ ⟨us, text, row'⟩ => ?_
  refine .spanFrom (.freshLiteral (.pure ?_))
  exact ⟨_, .function _ fnWord parameters text, .move (row.append row')⟩

theorem delivers_array (bracket : s.cursor.current.kind = .lbracket) : Delivers array s (Stands .closed · s ·) := by
  unfold array
  refine .current (.bind (delivers_expressionList bracket) fun es t _ ⟨ts, elements, row⟩ => ?_)
  exact .spanFrom (.pure ⟨ts, .array _ elements, row⟩)

theorem delivers_hash (brace : s.cursor.current.kind = .lbrace) : Delivers hash s (Stands .closed · s ·) := by
  unfold hash
  refine .current (.bind (delivers_bracketed .pair brace (fun _ => delivers_pair)
    fun _ => delivers_morePairs) fun ps t _ ⟨ts, pairs, row⟩ => ?_)
  exact .spanFrom (.pure ⟨ts, .hash _ pairs, row⟩)

theorem delivers_word {e : Expr} (stands : Grammar.Reads .primary e [s.cursor.current] []) :
    Delivers (pure e) s (Stands .closed · s ·) :=
  .pure ⟨_, .word stands, .stay _⟩

theorem delivers_integer (int : s.cursor.current.kind = .int) : Delivers integer s (Stands .closed · s ·) := by
  unfold integer
  refine .current ?_
  dsimp only
  split
  · next fits => exact delivers_word (.integer _ int fits)
  · exact .fail .current .tooLarge

theorem Delivers.operand {m : Parser Expr} (h : Delivers m s (Stands .closed · s ·)) :
    Delivers m s (StandsAsOperand s) :=
  h.mono fun e _ _ ⟨ts, written, row⟩ => ⟨.closed e, rfl, ⟨ts, .closed written, row⟩, rfl, nofun⟩

/-- Only calls and indices bind more tightly than a sign, and these are taken to its operand. -/
theorem delivers_unary {op : UnaryOp} (sign : UnaryOp.ofKind? s.cursor.current.kind = some op) :
    Delivers (unary op) s (StandsAsOperand s) := by
  unfold unary
  refine .current (.advance (.bind (delivers_call (.expression .unary)) fun e t _ met => ?_))
  obtain ⟨_, ⟨o, rfl, ⟨ts, written, row⟩, fits, next⟩, _⟩ := met
  refine .spanFrom (.pure ⟨.unary op o _, rfl, ?_, fits.infixes_eq_nil, ?_⟩)
  · exact ⟨_, .unary _ sign written, .move row⟩
  · rintro _ ⟨⟩
    exact next

theorem delivers_operand : Delivers operand s (StandsAsOperand s) := by
  unfold operand
  refine .current ?_
  split
  · next here => exact (delivers_word (.name _ here)).operand
  · next here => exact (delivers_integer here).operand
  · next here => exact (delivers_word (.str _ here)).operand
  · next here => exact (delivers_word (.trueWord _ here)).operand
  · next here => exact (delivers_word (.falseWord _ here)).operand
  · next here => exact delivers_unary (by rw [here]; rfl)
  · next here => exact delivers_unary (by rw [here]; rfl)
  · next here => exact (delivers_grouped here).mono fun e _ _ stands => ⟨.grouped e, rfl, stands, rfl, nofun⟩
  · next here => exact (delivers_conditional here).operand
  · next here => exact (delivers_function here).operand
  · next here => exact (delivers_array here).operand
  · next here => exact (delivers_hash here).operand
  · exact .fail .current .noExpression

theorem delivers_extend {left : Expr} {c : Continuation}
    (kind : Continuation.ofKind? s.cursor.current.kind = some c) : Delivers (extend left c) s (Grown c left s) := by
  unfold extend
  cases c with
  | binary op =>
    refine .advance (.bind (delivers_call (.expression op.precedence)) fun e t _ met => .pure ?_)
    obtain ⟨_, ⟨r, rfl, ⟨us, right, row⟩, fitsRight, next⟩, _⟩ := met
    refine ⟨_, .move row, fun above l ts same written fits lt holds => ?_⟩
    refine ⟨.binary op l r _, by rw [Outline.expr, same], ?_, fits.binary lt holds fitsRight, ?_⟩
    · exact .binary _ written (ofKind?_of_binary kind) right
    · rintro _ ⟨⟩
      exact next
  | call =>
    have paren := Grammar.kind_of_call kind
    refine .bind (delivers_expressionList paren) fun as t _ ⟨us, arguments, row⟩ => ?_
    refine .spanFrom (.pure ⟨us, row, fun above f ts same written fits _ _ => ?_⟩)
    refine ⟨.call f as _, by rw [Outline.expr, same], .call _ written arguments, fits, ?_⟩
    rintro _ ⟨⟩
    exact Grammar.Precedence.not_call_lt _
  | index =>
    have bracket := Grammar.kind_of_index kind
    refine .advance (.bind delivers_expression fun i t _ ⟨us, index, row⟩ => ?_)
    refine .expectPeek fun closes => .spanFrom (.pure ?_)
    refine ⟨_, .move row.next, fun above b ts same written fits _ _ => ?_⟩
    refine ⟨.index b i _, by rw [Outline.expr, same], .index _ written bracket index closes, fits, ?_⟩
    rintro _ ⟨⟩
    exact Grammar.Precedence.not_call_lt _

/-- One round of the loop: what was read so far is the left operand of what comes next, if that binds tightly enough. -/
theorem delivers_continued {above : Precedence} {left : Expr} :
    Delivers (produce (.continued above left)) s (Contract (.continued above left) s) := by
  unfold produce
  refine .peekKind ?_
  split
  · next c kind =>
    have next := precedence_of_some kind
    split
    · next lt =>
      refine .advance (.bind (delivers_extend kind) fun e t _ grown => ?_)
      refine (delivers_call (.continued above e)).mono fun e' u _ met h o same stands fits holds => ?_
      obtain ⟨ts, written, row⟩ := stands
      obtain ⟨us, row', grow⟩ := grown
      obtain ⟨o', same', written', fits', holds'⟩ := grow above o ts same written fits lt (next ▸ holds)
      exact met.2.1 h o' same' ⟨_, written', row.append row'⟩ fits' holds'
    · next weaker =>
      exact .pure fun h o same stands fits _ => ⟨o, same, stands, fits, by rwa [next]⟩
  · next kind =>
    refine .pure fun h o same stands fits _ => ⟨o, same, stands, fits, ?_⟩
    rw [precedence_of_none kind]
    exact not_lt_lowest above

theorem delivers_produceExpression {above : Precedence} :
    Delivers (produce (.expression above)) s (Finished above s) := by
  unfold produce
  refine .bind delivers_operand fun left t _ ⟨o, same, stands, single, holds⟩ => ?_
  refine (delivers_call (.continued above left)).mono fun e u _ met => ?_
  have fits : o.Fits above := by simp [Outline.Fits, single]
  exact met.2.1 s o same stands fits holds

theorem delivers_letStatement : Delivers letStatement s fun _ _ => True := by
  unfold letStatement
  refine .current (.expectPeek fun _ => .current (.expectPeek fun _ => ?_))
  refine .advance (.bind delivers_expression fun _ _ _ _ => ?_)
  exact .skipSemicolon fun _ _ _ _ => .spanFrom (.pure trivial)

theorem delivers_returnStatement : Delivers returnStatement s fun _ _ => True := by
  have value (t : State) : Delivers returnValue t fun _ _ => True := by
    unfold returnValue
    refine .peekKind ?_
    split
    · exact .pure trivial
    · exact .pure trivial
    · exact .pure trivial
    · exact .advance (.bind delivers_expression fun _ _ _ _ => .pure trivial)
  unfold returnStatement
  refine .current (.bind (value s) fun _ _ _ _ => ?_)
  exact .skipSemicolon fun _ _ _ _ => .spanFrom (.pure trivial)

theorem delivers_statement : Delivers (produce .statement) s fun _ _ => True := by
  unfold produce
  refine .current ?_
  split
  · exact delivers_letStatement
  · exact delivers_returnStatement
  · exact .bind delivers_expression fun _ _ _ _ => .skipSemicolon fun _ _ _ _ => .pure trivial

theorem delivers_statements {inBlock : Bool} :
    Delivers (produce (.statements inBlock)) s (Contract (.statements inBlock) s) := by
  unfold produce
  refine .current ?_
  dsimp only
  split
  · next closed => exact .pure closed
  · refine .attempt (fun _ => trivial) fun _ inside read t kept => ?_
    refine ⟨t.advance, rfl, trivial, kept.1.1.trans ⟨_, .move (.stay _)⟩, ?_⟩
    refine .bind (delivers_call (.statements inBlock)) fun rest u _ met => ?_
    cases read <;> exact .pure met.2.1

/-- Every goal keeps its contract. -/
theorem produce_delivers (goal : Goal) (s : State) : Delivers (produce goal) s (Contract goal s) := by
  cases goal with
  | statement => exact delivers_statement
  | statements inBlock => exact delivers_statements
  | expression above => exact delivers_produceExpression
  | continued above left => exact delivers_continued
  | moreExpressions =>
    exact delivers_moreItems .expression (fun _ => delivers_expression) fun _ => delivers_moreExpressions
  | morePairs => exact delivers_moreItems .pair (fun _ => delivers_pair) fun _ => delivers_morePairs
  | moreParameters =>
    exact delivers_moreItems .parameter (fun _ => delivers_parameter) fun _ => delivers_moreParameters

/-- Every goal keeps what is known of its calls. -/
theorem keeps_delivery (goal : Goal) (s : State) (_ : delivery.Calls goal s) :
    (produce goal s).Charts delivery.Calls delivery.Kept (delivery.Kept goal s) := by
  have returns := (produce_delivers goal s trivial).returns fun _ _ _ _ _ kept => kept.2
  exact returns.mono fun _ _ _ ends => ⟨ends_iff_passes.1 ends.1, ends.2⟩

theorem contract_of_returns {goal : Goal} {a : goal.Result} {s t : State}
    (h : Returns produce (produce goal s) (.ok a) t) : Contract goal s a t := by
  obtain ⟨trace, run⟩ := h.exists_traces
  have kept := ends_iff_passes.1 (run.charts keeps_delivery (produce_delivers goal s trivial))
  exact kept.2 a rfl

end Productions

end Parser

open Monkey.Parser CallTree in
/-- Reading an expression with the operators that bind more tightly than `above` takes the tokens of that expression,
from the first to the last, which is then the current one. It is the closing parenthesis of an expression in
parentheses, and the end token only where a block of the expression is cut off. What comes next does not bind more
tightly than `above`; a semicolon does not bind at all. The binary operators outside brackets bind more tightly than
`above`; what stands on top to the left of one does not bind less tightly, and what stands on top to its right binds
more tightly. -/
theorem expression_contract {above : Precedence} {s t : Parser.State} {e : Expr}
    (h : Returns produce (produce (.expression above) s) (.ok e) t) :
    ∃ o ts, o.expr = e ∧ Phrase.outline.Written o ts ∧ s.cursor.Row t.cursor ts ∧
      ts.getLast? = some t.cursor.current ∧
      (∀ inner, o = .grouped inner → t.cursor.current.kind = .rparen) ∧
      (t.cursor.current.kind = .eof → EndsCutOff e ts) ∧
      ¬ above < t.cursor.peek.kind.precedence ∧
      ∀ x ∈ o.infixes, above < x.op.precedence ∧ (∀ q ∈ x.left.top?, ¬ q < x.op.precedence) ∧
        ∀ q ∈ x.right.top?, x.op.precedence < q := by
  obtain ⟨o, rfl, ⟨ts, written, row⟩, fits, next⟩ := contract_of_returns h
  have last := row.getLast?
  have kind : lastKind? ts = some t.cursor.current.kind := by rw [lastKind?, last, Option.map_some]
  refine ⟨o, ts, rfl, written, row, last, ?_, fun eof => ?_, next, fun x mem => ?_⟩
  · rintro inner rfl
    cases written with
    | grouped _ _ closes => simpa [closes] using kind.symm
  · exact written.closesOrCuts (kind.trans (congrArg some eof))
  · exact ⟨(fits x mem).above, (fits x mem).left, (fits x mem).right⟩

open Monkey.Parser CallTree in
/-- Asked for what binds more tightly than `==`, the parser stops before it. -/
theorem expression_contract_beforeEquality :
    let s : Parser.State := { cursor := .ofString "1 - (2 + 3) * -f(x)[0] - 4 == 5" }
    ∃ e t, Returns produce (produce (.expression .equality) s) (.ok e) t ∧
      t.cursor.current.literal = "4" ∧ t.cursor.peek.kind = .eq ∧
      ∃ o ts, o.expr = e ∧ Phrase.outline.Written o ts ∧ s.cursor.Row t.cursor ts ∧
        ¬ Precedence.equality < t.cursor.peek.kind.precedence ∧
        ∀ x ∈ o.infixes, Precedence.equality < x.op.precedence ∧ (∀ q ∈ x.left.top?, ¬ q < x.op.precedence) ∧
          ∀ q ∈ x.right.top?, x.op.precedence < q := by
  intro s
  have ends : (run produce 64 (produce (.expression .equality) s)).any (fun x =>
      x.1.isOk && x.2.cursor.current.literal == "4" && x.2.cursor.peek.kind == .eq) = true := by decide +kernel
  obtain ⟨⟨r, t⟩, found, holds⟩ := (Option.any_eq_true _ _).1 ends
  cases r with
  | error => cases holds
  | ok e =>
    have returns := exists_run_iff_returns.1 ⟨64, found⟩
    obtain ⟨o, ts, same, written, row, _, _, _, next, fits⟩ := expression_contract returns
    have ⟨literal, kind⟩ : t.cursor.current.literal = "4" ∧ t.cursor.peek.kind = .eq := by
      simpa [Except.isOk, Except.toBool] using holds
    exact ⟨e, t, returns, literal, kind, o, ts, same, written, row, next, fits⟩

end Monkey
