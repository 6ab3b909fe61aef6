import Monkey.Proofs.InStep
import Monkey.Proofs.ParserTotal
import Monkey.Proofs.Wording
import Monkey.Recovery
import Monkey.Syntax.Views

namespace Monkey

/-- The errors are the same, about the one token and about the other. -/
inductive SameFinding (t t' : Token) : ParseError → ParseError → Prop
  | unexpected (expected : TokenKind) :
      SameFinding t t' (.unexpectedToken expected t.kind t.span) (.unexpectedToken expected t'.kind t'.span)
  | noExpression : SameFinding t t' (.noExpression t.kind t.span) (.noExpression t'.kind t'.span)
  | tooLarge : SameFinding t t' (.integerTooLarge t.literal t.span) (.integerTooLarge t'.literal t'.span)

/-- Two texts side by side, and how they are seen. As long as the cursor on the first is live, what is seen of the
current tokens is the same. That may end with a semicolon, since no production but the loop of statements goes on after
one, or looks at what comes after it. -/
structure TextPair where
  view : View
  view' : View
  lexer : Lexer
  lexer' : Lexer
  live : Cursor → Prop
  wording : ∀ n, live (.ofLexer (lexer.skip n)) → (lexer.skip n).next.1.wording = (lexer'.skip n).next.1.wording
  span : ∀ n, live (.ofLexer (lexer.skip n)) →
    view.span (lexer.skip n).next.1.span = view'.span (lexer'.skip n).next.1.span
  next : ∀ n, live (.ofLexer (lexer.skip n)) → (lexer.skip n).next.1.kind ≠ .semicolon →
    live (.ofLexer (lexer.skip (n + 1)))
  merge : ∀ {a b a' b'}, view.span a = view'.span a' → view.span b = view'.span b' →
    view.span (a.merge b) = view'.span (a'.merge b')
  number : ∀ {n n'}, view.number n = view'.number n' → view.number (n + 1) = view'.number (n' + 1)

namespace Parser

variable (x : TextPair)

/-- The tokens are the current ones after equally many steps. -/
def TokensAlike (t t' : Token) : Prop :=
  ∃ n, x.live (.ofLexer (x.lexer.skip n)) ∧ t = (x.lexer.skip n).next.1 ∧ t' = (x.lexer'.skip n).next.1

/-- Both parsers have moved equally far, and have found the same mistakes. -/
structure StatesAlike (s s' : State) : Prop where
  window : ∃ n, s.cursor = .ofLexer (x.lexer.skip n) ∧ s'.cursor = .ofLexer (x.lexer'.skip n)
  errors :
    List.Forall₂ (fun e e' => ∃ t t', TokensAlike x t t' ∧ SameFinding t t' e e') s.errors.toList s'.errors.toList
  literals : x.view.number s.literals = x.view'.number s'.literals

/-- The state is live, and not at the end of a statement. -/
def Firm (s : State) : Prop := x.live s.cursor ∧ s.cursor.current.kind ≠ .semicolon

/-- A token that is no semicolon and comes next is a firm place to be. -/
theorem Firm.of_peek {x : TextPair} {s : State} {kind : TokenKind} (there : s.cursor.peek.kind = kind)
    (other : kind ≠ .semicolon) (live : x.live s.advance.cursor) : Firm x s.advance :=
  ⟨live, fun semicolon => other (there.symm.trans semicolon)⟩

/-- The goals are the same but for what is not seen of what they start with. -/
inductive GoalsAlike : Goal → Goal → Prop
  | statement : GoalsAlike .statement .statement
  | statements (inBlock : Bool) : GoalsAlike (.statements inBlock) (.statements inBlock)
  | expression (above : Precedence) : GoalsAlike (.expression above) (.expression above)
  | continued (above : Precedence) {left left' : Expr} :
      left.seen x.view = left'.seen x.view' → GoalsAlike (.continued above left) (.continued above left')
  | moreExpressions : GoalsAlike .moreExpressions .moreExpressions
  | morePairs : GoalsAlike .morePairs .morePairs
  | moreParameters : GoalsAlike .moreParameters .moreParameters

/-- What is seen of the results of goals of the same kind is the same. -/
def ResultsAlike : (goal goal' : Goal) → goal.Result → goal'.Result → Prop
  | .statement, .statement, s, s' => s.seen x.view = s'.seen x.view'
  | .statements _, .statements _, ss, ss' => ss.map (Statement.seen x.view) = ss'.map (Statement.seen x.view')
  | .expression _, .expression _, e, e' | .continued .., .continued .., e, e' => e.seen x.view = e'.seen x.view'
  | .moreExpressions, .moreExpressions, es, es' => es.map (Expr.seen x.view) = es'.map (Expr.seen x.view')
  | .morePairs, .morePairs, ps, ps' => ps.map (seenPair x.view) = ps'.map (seenPair x.view')
  | .moreParameters, .moreParameters, ids, ids' => ids.map (Identifier.seen x.view) = ids'.map (Identifier.seen x.view')
  | _, _, _, _ => False

/-- Goals that start where an expression has ended do not start on a semicolon. -/
def Goal.Starts (goal : Goal) (s : State) : Prop :=
  match goal with
  | .continued .. | .moreExpressions | .morePairs | .moreParameters => s.cursor.current.kind ≠ .semicolon
  | _ => True

/-- Only a statement ends on a semicolon. -/
def Goal.Stops (goal : Goal) (s : State) : Prop :=
  match goal with
  | .statement => True
  | _ => s.cursor.current.kind ≠ .semicolon

/-- Both have yielded values, which are related, in a state such as `ends`, or both have given up. -/
def EndsAlike {α β : Type} (value : α → β → Prop) (ends : State → Prop) :
    Except GivenUp α → State → Except GivenUp β → State → Prop :=
  CallTree.EndAlike (fun a t b t' => StatesAlike x t t' ∧ value a b ∧ ends t) fun _ t _ t' => StatesAlike x t t'

/-- The calls may be made. -/
def CallsAlike (goal : Goal) (s : State) (goal' : Goal) (s' : State) : Prop :=
  StatesAlike x s s' ∧ GoalsAlike x goal goal' ∧ goal.Starts s

/-- Started in states that are alike, the productions call goals that are, and end alike, if all goals do that are
started and ended live. -/
def Parallel {α β : Type} (m : Parser α) (m' : Parser β) (s s' : State) (value : α → β → Prop) (ends : State → Prop) :
    Prop :=
  StatesAlike x s s' → (m s).InStep (fun goal t goal' t' => x.live t.cursor → CallsAlike x goal t goal' t')
    (fun goal _ goal' _ r t r' t' =>
      x.live t.cursor ∧ EndsAlike x (ResultsAlike x goal goal') goal.Stops r t r' t') (m' s')
    (EndsAlike x value ends)

section Tokens

variable {x} {t t' : Token}

theorem TokensAlike.wording_eq (h : TokensAlike x t t') : t.wording = t'.wording := by
  obtain ⟨n, live, rfl, rfl⟩ := h
  exact x.wording n live

theorem TokensAlike.kind_eq (h : TokensAlike x t t') : t.kind = t'.kind := congrArg Prod.fst h.wording_eq

theorem TokensAlike.literal_eq (h : TokensAlike x t t') : t.literal = t'.literal := congrArg Prod.snd h.wording_eq

theorem TokensAlike.span_eq (h : TokensAlike x t t') : x.view.span t.span = x.view'.span t'.span := by
  obtain ⟨n, live, rfl, rfl⟩ := h
  exact x.span n live

theorem TokensAlike.identifier_eq (h : TokensAlike x t t') :
    Identifier.seen x.view ⟨t.literal, t.span⟩ = Identifier.seen x.view' ⟨t'.literal, t'.span⟩ := by
  change Identifier.mk t.literal (x.view.span t.span) = .mk t'.literal (x.view'.span t'.span)
  rw [h.literal_eq, h.span_eq]

end Tokens

section States

variable {x} {s s' : State}

theorem StatesAlike.current (h : StatesAlike x s s') (live : x.live s.cursor) :
    TokensAlike x s.cursor.current s'.cursor.current := by
  obtain ⟨n, left, right⟩ := h.window
  rw [left] at live
  exact ⟨n, live, by rw [left]; rfl, by rw [right]; rfl⟩

theorem StatesAlike.live_advance (h : StatesAlike x s s') (firm : Firm x s) : x.live s.advance.cursor := by
  obtain ⟨n, left, _⟩ := h.window
  obtain ⟨live, other⟩ := firm
  have moved : s.advance.cursor = .ofLexer (x.lexer.skip (n + 1)) := by
    simp only [State.advance, left]
    rfl
  rw [left] at live other
  rw [moved]
  exact x.next n live other

theorem StatesAlike.advance (h : StatesAlike x s s') : StatesAlike x s.advance s'.advance := by
  obtain ⟨n, left, right⟩ := h.window
  refine ⟨⟨n + 1, ?_, ?_⟩, h.errors, h.literals⟩
  · simp only [State.advance, left]
    rfl
  · simp only [State.advance, right]
    rfl

theorem StatesAlike.peek (h : StatesAlike x s s') (firm : Firm x s) :
    TokensAlike x s.cursor.peek s'.cursor.peek :=
  h.advance.current (h.live_advance firm)

theorem StatesAlike.fail (h : StatesAlike x s s') {t t' : Token} {e e' : ParseError} (tokens : TokensAlike x t t')
    (same : SameFinding t t' e e') : StatesAlike x (s.fail e) (s'.fail e') := by
  refine ⟨h.window, ?_, h.literals⟩
  rw [State.errors_fail, State.errors_fail, Array.toList_push, Array.toList_push]
  exact List.rel_append h.errors (.cons ⟨t, t', tokens, same⟩ .nil)

end States

section Rules

variable {x} {α β γ δ : Type} {s s' : State} {value : α → β → Prop} {ends : State → Prop}

theorem parallel_pure {a : α} {b : β} (h : value a b) (holds : ends s) :
    Parallel x (pure a) (pure b) s s' value ends :=
  fun states => ⟨states, h, holds⟩

theorem parallel_fail {t t' : Token} {e e' : ParseError} (tokens : TokensAlike x t t') (same : SameFinding t t' e e') :
    Parallel x (fail e) (fail e') s s' value ends :=
  fun states => states.fail tokens same

theorem parallel_call {goal goal' : Goal} (goals : GoalsAlike x goal goal') (starts : goal.Starts s)
    (imp : ∀ t, x.live t.cursor → goal.Stops t → ends t) :
    Parallel x (Routine.call goal) (Routine.call goal') s s' (ResultsAlike x goal goal') ends := by
  refine fun states => ⟨fun _ => ⟨states, goals, starts⟩, fun r t r' t' met => ?_⟩
  obtain ⟨live, met⟩ := met
  cases r with
  | ok a => cases r' with
    | ok b => exact ⟨met.1, met.2.1, imp t live met.2.2⟩
    | error => exact met.elim
  | error => cases r' with
    | ok => exact met.elim
    | error => exact met

/-- Calls of goals other than statements end firmly. -/
theorem parallel_call_firm {goal goal' : Goal} (goals : GoalsAlike x goal goal') (starts : goal.Starts s)
    (other : goal ≠ .statement) :
    Parallel x (Routine.call goal) (Routine.call goal') s s' (ResultsAlike x goal goal') (Firm x) := by
  refine parallel_call goals starts fun t live stops => ⟨live, ?_⟩
  cases goal with
  | statement => exact absurd rfl other
  | _ => exact stops

theorem parallel_bind {mid : γ → δ → Prop} {midEnds : State → Prop} {m : Parser γ} {m' : Parser δ} {f : γ → Parser α}
    {f' : δ → Parser β} (first : Parallel x m m' s s' mid midEnds)
    (rest : ∀ a b t t', mid a b → midEnds t → Parallel x (f a) (f' b) t t' value ends) :
    Parallel x (m >>= f) (m' >>= f') s s' value ends :=
  fun states => CallTree.InStep.andThen (first states) fun a t b t' met => rest a b t t' met.2.1 met.2.2 met.1

theorem parallel_attempt {m : Parser α} {m' : Parser β} (h : Parallel x m m' s s' value ends) :
    Parallel x m.attempt m'.attempt s s' (fun read read' =>
      (∃ a b, read = .ok a ∧ read' = .ok b ∧ value a b) ∨ ∃ x y, read = .error x ∧ read' = .error y) fun _ => True := by
  intro states
  refine CallTree.InStep.observe ((h states).mono (fun _ _ _ _ h => h) (fun _ _ _ _ _ _ _ _ h => h) ?_)
  intro r t r' t' met
  cases r with
  | ok a => cases r' with
    | ok b => exact ⟨met.1, .inl ⟨a, b, rfl, rfl, met.2.1⟩, trivial⟩
    | error => exact met.elim
  | error e => cases r' with
    | ok => exact met.elim
    | error e' => exact ⟨met, .inr ⟨e, e', rfl, rfl⟩, trivial⟩

theorem parallel_current {f : Token → Parser α} {f' : Token → Parser β} (live : x.live s.cursor)
    (h : TokensAlike x s.cursor.current s'.cursor.current →
      Parallel x (f s.cursor.current) (f' s'.cursor.current) s s' value ends) :
    Parallel x (current >>= f) (current >>= f') s s' value ends :=
  fun states => h (states.current live) states

theorem parallel_peekKind {f : TokenKind → Parser α} {f' : TokenKind → Parser β} (firm : Firm x s)
    (h : Parallel x (f s.cursor.peek.kind) (f' s.cursor.peek.kind) s s' value ends) :
    Parallel x (peekKind >>= f) (peekKind >>= f') s s' value ends := by
  intro states
  have kinds := (states.peek firm).kind_eq
  rw [peekKind_bind, peekKind_bind, ← kinds]
  exact h states

/-- To move on is possible everywhere; from a firm state it leads to a live one. -/
theorem parallel_advance {f : Unit → Parser α} {f' : Unit → Parser β}
    (h : (Firm x s → x.live s.advance.cursor) → Parallel x (f ()) (f' ()) s.advance s'.advance value ends) :
    Parallel x (advance >>= f) (advance >>= f') s s' value ends :=
  fun states => h states.live_advance states.advance

theorem parallel_spanFrom {start start' : Span} {f : Span → Parser α} {f' : Span → Parser β} (live : x.live s.cursor)
    (starts : x.view.span start = x.view'.span start')
    (h : ∀ span span', x.view.span span = x.view'.span span' → Parallel x (f span) (f' span') s s' value ends) :
    Parallel x (spanFrom start >>= f) (spanFrom start' >>= f') s s' value ends :=
  fun states => h _ _ (x.merge starts (states.current live).span_eq) states

theorem parallel_freshLiteral {f : Nat → Parser α} {f' : Nat → Parser β}
    (h : ∀ n n', x.view.number n = x.view'.number n' →
      Parallel x (f n) (f' n') s.countLiteral s'.countLiteral value ends) :
    Parallel x (freshLiteral >>= f) (freshLiteral >>= f') s s' value ends :=
  fun states => h _ _ states.literals ⟨states.window, states.errors, x.number states.literals⟩

theorem parallel_expectPeek {expected : TokenKind} {f : Unit → Parser α} {f' : Unit → Parser β} (firm : Firm x s)
    (other : expected ≠ .semicolon)
    (h : Firm x s.advance → Parallel x (f ()) (f' ()) s.advance s'.advance value ends) :
    Parallel x (expectPeek expected >>= f) (expectPeek expected >>= f') s s' value ends := by
  intro states
  have tokens := states.peek firm
  have kinds := tokens.kind_eq
  by_cases there : s.cursor.peek.kind = expected
  · rw [Routine.bind_apply, Routine.bind_apply, expectPeek_of_eq there, expectPeek_of_eq (kinds.symm.trans there)]
    have firm' : Firm x s.advance := .of_peek there other (states.live_advance firm)
    exact h firm' states.advance
  · have there' : s'.cursor.peek.kind ≠ expected := fun same => there (kinds.trans same)
    rw [Routine.bind_apply, Routine.bind_apply, expectPeek_of_ne there, expectPeek_of_ne there']
    exact states.fail tokens (.unexpected expected)

theorem parallel_skipSemicolon {f : Unit → Parser α} {f' : Unit → Parser β} (firm : Firm x s)
    (h : ∀ t t', x.live t.cursor → Parallel x (f ()) (f' ()) t t' value ends) :
    Parallel x (skipSemicolon >>= f) (skipSemicolon >>= f') s s' value ends := by
  intro states
  have kinds := (states.peek firm).kind_eq
  rw [skipSemicolon_bind, skipSemicolon_bind]
  unfold State.skipSemicolon
  rw [← kinds]
  split
  · exact h _ _ (states.live_advance firm) states.advance
  · exact h _ _ firm.1 states

end Rules

section Productions

variable {x} {α : Type} {s s' : State}

theorem parallel_tighter {above : Precedence} :
    Parallel x (tighter above) (tighter above) s s' (fun e e' => e.seen x.view = e'.seen x.view') (Firm x) :=
  parallel_call_firm (.expression above) trivial nofun

theorem parallel_expression :
    Parallel x expression expression s s' (fun e e' => e.seen x.view = e'.seen x.view') (Firm x) :=
  parallel_tighter

theorem parallel_moreItems {seen seen' : α → α} {item : Parser α} {more : Parser (List α)} (firm : Firm x s)
    (items : ∀ t t', x.live t.cursor → Parallel x item item t t' (fun a b => seen a = seen' b) (Firm x))
    (others : ∀ t t', Firm x t → Parallel x more more t t' (fun as bs => as.map seen = bs.map seen') (Firm x)) :
    Parallel x (moreItems item more) (moreItems item more) s s' (fun as bs => as.map seen = bs.map seen') (Firm x) := by
  unfold moreItems
  refine parallel_peekKind firm ?_
  split
  · next comma =>
    refine parallel_advance fun live => ?_
    have firm' : Firm x s.advance := .of_peek comma (by decide) (live firm)
    refine parallel_advance fun live => parallel_bind (items _ _ (live firm')) fun a b t t' first firm => ?_
    refine parallel_bind (others t t' firm) fun as bs u u' rest firm => parallel_pure ?_ firm
    rw [List.map_cons, List.map_cons, first, rest]
  · exact parallel_pure rfl firm

theorem parallel_bracketed {seen seen' : α → α} {closing : TokenKind} {item : Parser α} {more : Parser (List α)}
    (firm : Firm x s) (other : closing ≠ .semicolon)
    (items : ∀ t t', x.live t.cursor → Parallel x item item t t' (fun a b => seen a = seen' b) (Firm x))
    (others : ∀ t t', Firm x t → Parallel x more more t t' (fun as bs => as.map seen = bs.map seen') (Firm x)) :
    Parallel x (bracketed closing item more) (bracketed closing item more) s s'
      (fun as bs => as.map seen = bs.map seen') (Firm x) := by
  unfold bracketed
  refine parallel_peekKind firm ?_
  split
  · next closes => exact parallel_advance fun live => parallel_pure rfl (.of_peek closes other (live firm))
  · refine parallel_advance fun live => parallel_bind (items _ _ (live firm)) fun a b t t' first firm => ?_
    refine parallel_bind (others t t' firm) fun as bs u u' rest firm => ?_
    refine parallel_expectPeek firm other fun firm => parallel_pure ?_ firm
    rw [List.map_cons, List.map_cons, first, rest]

theorem parallel_parameter (live : x.live s.cursor) :
    Parallel x parameter parameter s s' (fun id id' => id.seen x.view = id'.seen x.view') (Firm x) := by
  unfold parameter
  refine parallel_current live fun tokens => ?_
  rw [← tokens.kind_eq]
  split
  · next ident =>
    refine parallel_pure tokens.identifier_eq ⟨live, ?_⟩
    rw [ident]
    decide
  · have same : SameFinding s.cursor.current s'.cursor.current _ _ := .unexpected .ident
    rw [← tokens.kind_eq] at same
    exact parallel_fail tokens same

theorem parallel_pair :
    Parallel x pair pair s s' (fun p q => seenPair x.view p = seenPair x.view' q) (Firm x) := by
  unfold pair
  refine parallel_bind parallel_expression fun k k' t t' keys firm => ?_
  refine parallel_expectPeek firm (by decide) fun firm => parallel_advance fun live => ?_
  refine parallel_bind parallel_expression fun e e' u u' values firm => parallel_pure ?_ firm
  rw [seenPair, seenPair, keys, values]

/-- A block ends on a brace or with the text. -/
theorem parallel_block (firm : Firm x s) :
    Parallel x block block s s' (fun b b' => b.seen x.view = b'.seen x.view') (Firm x) := by
  unfold block
  refine parallel_current firm.1 fun token => parallel_advance fun _ => ?_
  refine parallel_bind (parallel_call_firm (.statements true) trivial nofun) fun ss ss' t t' statements firm => ?_
  refine parallel_spanFrom firm.1 token.span_eq fun span span' spans => parallel_pure ?_ firm
  have statements : ss.map (Statement.seen x.view) = ss'.map (Statement.seen x.view') := statements
  rw [Block.seen_mk, Block.seen_mk, statements, spans]

theorem parallel_alternative (firm : Firm x s) :
    Parallel x alternative alternative s s'
      (fun b b' => b.map (Block.seen x.view) = b'.map (Block.seen x.view')) (Firm x) := by
  unfold alternative
  refine parallel_peekKind firm ?_
  split
  · next elseWord =>
    refine parallel_advance fun live => ?_
    have firm' : Firm x s.advance := .of_peek elseWord (by decide) (live firm)
    refine parallel_expectPeek firm' (by decide) fun firm => ?_
    exact parallel_bind (parallel_block firm) fun b b' t t' blocks firm => parallel_pure (congrArg some blocks) firm
  · exact parallel_pure rfl firm

theorem parallel_integer (firm : Firm x s) :
    Parallel x integer integer s s' (fun e e' => e.seen x.view = e'.seen x.view') (Firm x) := by
  unfold integer
  refine parallel_current firm.1 fun tokens => ?_
  rw [← tokens.literal_eq]
  dsimp only
  split
  · refine parallel_pure ?_ firm
    rw [Expr.seen_int, Expr.seen_int, tokens.span_eq]
  · have same : SameFinding s.cursor.current s'.cursor.current _ _ := .tooLarge
    rw [← tokens.literal_eq] at same
    exact parallel_fail tokens same

theorem parallel_unary {op : UnaryOp} (firm : Firm x s) :
    Parallel x (unary op) (unary op) s s' (fun e e' => e.seen x.view = e'.seen x.view') (Firm x) := by
  unfold unary
  refine parallel_current firm.1 fun tokens => parallel_advance fun _ => ?_
  refine parallel_bind parallel_tighter fun e e' t t' operands firm => ?_
  refine parallel_spanFrom firm.1 tokens.span_eq fun span span' spans => parallel_pure ?_ firm
  rw [Expr.seen_unary, Expr.seen_unary, operands, spans]

theorem parallel_grouped :
    Parallel x grouped grouped s s' (fun e e' => e.seen x.view = e'.seen x.view') (Firm x) := by
  unfold grouped
  refine parallel_advance fun _ => parallel_bind parallel_expression fun e e' t t' inner firm => ?_
  exact parallel_expectPeek firm (by decide) fun firm => parallel_pure inner firm

theorem parallel_conditional (firm : Firm x s) :
    Parallel x conditional conditional s s' (fun e e' => e.seen x.view = e'.seen x.view') (Firm x) := by
  unfold conditional
  refine parallel_current firm.1 fun tokens => ?_
  refine parallel_expectPeek firm (by decide) fun firm => parallel_advance fun _ => ?_
  refine parallel_bind parallel_expression fun c c' t t' conditions firm => ?_
  refine parallel_expectPeek firm (by decide) fun firm => parallel_expectPeek firm (by decide) fun firm => ?_
  refine parallel_bind (parallel_block firm) fun b b' u u' consequences firm => ?_
  refine parallel_bind (parallel_alternative firm) fun a a' w w' alternatives firm => ?_
  refine parallel_spanFrom firm.1 tokens.span_eq fun span span' spans => parallel_pure ?_ firm
  rw [Expr.seen_cond, Expr.seen_cond, conditions, consequences, alternatives, spans]

theorem parallel_parameters (firm : Firm x s) :
    Parallel x (bracketed .rparen parameter moreParameters) (bracketed .rparen parameter moreParameters) s s'
      (fun ids ids' => ids.map (Identifier.seen x.view) = ids'.map (Identifier.seen x.view')) (Firm x) :=
  parallel_bracketed firm (by decide) (fun _ _ live => parallel_parameter live) fun _ _ firm =>
    parallel_call_firm .moreParameters firm.2 nofun

theorem parallel_function (firm : Firm x s) :
    Parallel x function function s s' (fun e e' => e.seen x.view = e'.seen x.view') (Firm x) := by
  unfold function
  refine parallel_current firm.1 fun tokens => parallel_expectPeek firm (by decide) fun firm => ?_
  refine parallel_bind (parallel_parameters firm) fun ps ps' t t' parameters firm => ?_
  refine parallel_expectPeek firm (by decide) fun firm => ?_
  refine parallel_bind (parallel_block firm) fun b b' u u' bodies firm => ?_
  refine parallel_spanFrom firm.1 tokens.span_eq fun span span' spans => ?_
  refine parallel_freshLiteral fun n n' numbers => parallel_pure ?_ firm
  have places : Place.seen x.view ⟨span, n⟩ = Place.seen x.view' ⟨span', n'⟩ := by
    change Place.mk (x.view.span span) (x.view.number n) = .mk (x.view'.span span') (x.view'.number n')
    rw [spans, numbers]
  rw [Expr.seen_function, Expr.seen_function, parameters, bodies, places]

theorem parallel_expressionList {closing : TokenKind} (firm : Firm x s) (other : closing ≠ .semicolon) :
    Parallel x (expressionList closing) (expressionList closing) s s'
      (fun es es' => es.map (Expr.seen x.view) = es'.map (Expr.seen x.view')) (Firm x) :=
  parallel_bracketed firm other (fun _ _ _ => parallel_expression) fun _ _ firm =>
    parallel_call_firm .moreExpressions firm.2 nofun

theorem parallel_array (firm : Firm x s) :
    Parallel x array array s s' (fun e e' => e.seen x.view = e'.seen x.view') (Firm x) := by
  unfold array
  refine parallel_current firm.1 fun tokens => ?_
  refine parallel_bind (parallel_expressionList firm (by decide)) fun es es' t t' elements firm => ?_
  refine parallel_spanFrom firm.1 tokens.span_eq fun span span' spans => parallel_pure ?_ firm
  rw [Expr.seen_array, Expr.seen_array, elements, spans]

theorem parallel_hash (firm : Firm x s) :
    Parallel x hash hash s s' (fun e e' => e.seen x.view = e'.seen x.view') (Firm x) := by
  unfold hash
  refine parallel_current firm.1 fun tokens => ?_
  refine parallel_bind (parallel_bracketed firm (by decide) (fun _ _ _ => parallel_pair) fun _ _ firm =>
    parallel_call_firm .morePairs firm.2 nofun) fun ps ps' t t' pairs firm => ?_
  refine parallel_spanFrom firm.1 tokens.span_eq fun span span' spans => parallel_pure ?_ firm
  rw [Expr.seen_hash, Expr.seen_hash, pairs, spans]

/-- A semicolon begins no expression, so an operand that is read is none. -/
theorem parallel_operand (live : x.live s.cursor) :
    Parallel x operand operand s s' (fun e e' => e.seen x.view = e'.seen x.view') (Firm x) := by
  unfold operand
  refine parallel_current live fun tokens => ?_
  have firm {kind : TokenKind} (here : s.cursor.current.kind = kind) (other : kind ≠ .semicolon) : Firm x s :=
    ⟨live, fun semicolon => other (here.symm.trans semicolon)⟩
  have same : SameFinding s.cursor.current s'.cursor.current _ _ := .noExpression
  rw [← tokens.kind_eq] at same ⊢
  cases here : s.cursor.current.kind with
  | ident =>
    refine parallel_pure ?_ (firm here (by decide))
    rw [Expr.seen_name, Expr.seen_name, tokens.identifier_eq]
  | int => exact parallel_integer (firm here (by decide))
  | str =>
    refine parallel_pure ?_ (firm here (by decide))
    rw [Expr.seen_str, Expr.seen_str, tokens.literal_eq, tokens.span_eq]
  | trueWord =>
    refine parallel_pure ?_ (firm here (by decide))
    rw [Expr.seen_bool, Expr.seen_bool, tokens.span_eq]
  | falseWord =>
    refine parallel_pure ?_ (firm here (by decide))
    rw [Expr.seen_bool, Expr.seen_bool, tokens.span_eq]
  | bang => exact parallel_unary (firm here (by decide))
  | minus => exact parallel_unary (firm here (by decide))
  | lparen => exact parallel_grouped
  | ifWord => exact parallel_conditional (firm here (by decide))
  | fnWord => exact parallel_function (firm here (by decide))
  | lbracket => exact parallel_array (firm here (by decide))
  | lbrace => exact parallel_hash (firm here (by decide))
  | _ =>
    rw [here] at same
    exact parallel_fail tokens same

theorem span_eq_of_seen {e e' : Expr} (same : e.seen x.view = e'.seen x.view') :
    x.view.span e.span = x.view'.span e'.span := by
  have spans := congrArg Expr.span same
  rwa [Expr.span_seen, Expr.span_seen] at spans

theorem parallel_extend {left left' : Expr} (c : Continuation) (firm : Firm x s)
    (lefts : left.seen x.view = left'.seen x.view') :
    Parallel x (extend left c) (extend left' c) s s' (fun e e' => e.seen x.view = e'.seen x.view') (Firm x) := by
  have starts := span_eq_of_seen lefts
  unfold extend
  cases c with
  | binary op =>
    refine parallel_advance fun _ => parallel_bind parallel_tighter fun r r' t t' rights firm => parallel_pure ?_ firm
    rw [Expr.seen_binary, Expr.seen_binary, lefts, rights, x.merge starts (span_eq_of_seen rights)]
  | call =>
    refine parallel_bind (parallel_expressionList firm (by decide)) fun as as' t t' arguments firm => ?_
    refine parallel_spanFrom firm.1 starts fun span span' spans => parallel_pure ?_ firm
    rw [Expr.seen_call, Expr.seen_call, lefts, arguments, spans]
  | index =>
    refine parallel_advance fun _ => parallel_bind parallel_expression fun i i' t t' indices firm => ?_
    refine parallel_expectPeek firm (by decide) fun firm => ?_
    refine parallel_spanFrom firm.1 starts fun span span' spans => parallel_pure ?_ firm
    rw [Expr.seen_index, Expr.seen_index, lefts, indices, spans]

theorem parallel_letStatement (firm : Firm x s) :
    Parallel x letStatement letStatement s s' (fun s s' => s.seen x.view = s'.seen x.view') fun _ => True := by
  unfold letStatement
  refine parallel_current firm.1 fun tokens => parallel_expectPeek firm (by decide) fun firm => ?_
  refine parallel_current firm.1 fun names => parallel_expectPeek firm (by decide) fun firm => ?_
  refine parallel_advance fun _ => parallel_bind parallel_expression fun e e' t t' values firm => ?_
  refine parallel_skipSemicolon firm fun u u' live => ?_
  refine parallel_spanFrom live tokens.span_eq fun span span' spans => parallel_pure ?_ trivial
  rw [Statement.seen_bind, Statement.seen_bind, values, names.identifier_eq, spans]

theorem parallel_returnValue (firm : Firm x s) :
    Parallel x returnValue returnValue s s'
      (fun value value' => value.map (Expr.seen x.view) = value'.map (Expr.seen x.view')) (Firm x) := by
  unfold returnValue
  refine parallel_peekKind firm ?_
  split
  · exact parallel_pure rfl firm
  · exact parallel_pure rfl firm
  · exact parallel_pure rfl firm
  · refine parallel_advance fun _ => parallel_bind parallel_expression fun e e' t t' values firm => ?_
    exact parallel_pure (congrArg some values) firm

theorem parallel_returnStatement (firm : Firm x s) :
    Parallel x returnStatement returnStatement s s' (fun s s' => s.seen x.view = s'.seen x.view') fun _ => True := by
  unfold returnStatement
  refine parallel_current firm.1 fun tokens => ?_
  refine parallel_bind (parallel_returnValue firm) fun value value' t t' values firm => ?_
  refine parallel_skipSemicolon firm fun u u' live => ?_
  refine parallel_spanFrom live tokens.span_eq fun span span' spans => parallel_pure ?_ trivial
  rw [Statement.seen_ret, Statement.seen_ret, values, spans]

theorem parallel_statement (live : x.live s.cursor) :
    Parallel x (produce .statement) (produce .statement) s s' (fun s s' => s.seen x.view = s'.seen x.view')
      fun _ => True := by
  unfold produce
  refine parallel_current live fun tokens => ?_
  rw [← tokens.kind_eq]
  split
  · next here => exact parallel_letStatement ⟨live, by rw [here]; decide⟩
  · next here => exact parallel_returnStatement ⟨live, by rw [here]; decide⟩
  · refine parallel_bind parallel_expression fun e e' t t' values firm => ?_
    refine parallel_skipSemicolon firm fun u u' live => parallel_pure ?_ trivial
    rw [Statement.seen_expr, Statement.seen_expr, values]

/-- After a statement the loop goes on, if only to find that nothing is live any more. -/
theorem parallel_statements {inBlock : Bool} (live : x.live s.cursor) :
    Parallel x (produce (.statements inBlock)) (produce (.statements inBlock)) s s'
      (fun ss ss' => ss.map (Statement.seen x.view) = ss'.map (Statement.seen x.view'))
      fun t => t.cursor.current.kind ≠ .semicolon := by
  unfold produce
  refine parallel_current live fun tokens => ?_
  rw [← tokens.kind_eq]
  dsimp only
  split
  · next closed =>
    refine parallel_pure rfl fun semicolon => ?_
    rw [semicolon] at closed
    rcases closed with eof | ⟨_, rbrace⟩
    · cases eof
    · cases rbrace
  · refine parallel_bind (parallel_attempt (parallel_call .statement trivial fun _ _ _ => trivial))
      fun read read' t t' reads _ => parallel_advance fun _ => ?_
    refine parallel_bind (parallel_call_firm (.statements inBlock) trivial nofun) fun ss ss' u u' rests firm => ?_
    have rests : ss.map (Statement.seen x.view) = ss'.map (Statement.seen x.view') := rests
    rcases reads with ⟨st, st', rfl, rfl, statements⟩ | ⟨e, e', rfl, rfl⟩
    · have statements : st.seen x.view = st'.seen x.view' := statements
      refine parallel_pure ?_ firm.2
      rw [List.map_cons, List.map_cons, statements, rests]
    · exact parallel_pure rests firm.2

theorem parallel_continued {above : Precedence} {left left' : Expr} (firm : Firm x s)
    (lefts : left.seen x.view = left'.seen x.view') :
    Parallel x (produce (.continued above left)) (produce (.continued above left')) s s'
      (fun e e' => e.seen x.view = e'.seen x.view') (Firm x) := by
  unfold produce
  refine parallel_peekKind firm ?_
  cases found : Continuation.ofKind? s.cursor.peek.kind with
  | none => exact parallel_pure lefts firm
  | some c =>
    dsimp only
    split
    · refine parallel_advance fun live => ?_
      have other : s.cursor.peek.kind ≠ .semicolon := fun semicolon => by
        rw [semicolon] at found
        cases found
      have firm' : Firm x s.advance := .of_peek rfl other (live firm)
      refine parallel_bind (parallel_extend c firm' lefts) fun e e' t t' extended firm => ?_
      exact parallel_call_firm (.continued above extended) firm.2 nofun
    · exact parallel_pure lefts firm

/-- Ending firmly is more than goals ask for. -/
theorem Parallel.stops {β : Type} {m : Parser α} {m' : Parser β} {value : α → β → Prop}
    (h : Parallel x m m' s s' value (Firm x)) (goal : Goal) (other : goal ≠ .statement) :
    Parallel x m m' s s' value goal.Stops := by
  refine fun states => (h states).mono (fun _ _ _ _ h => h) (fun _ _ _ _ _ _ _ _ h => h) fun r t r' t' met => ?_
  cases r with
  | ok a => cases r' with
    | ok b =>
      refine ⟨met.1, met.2.1, ?_⟩
      cases goal with
      | statement => exact absurd rfl other
      | _ => exact met.2.2.2
    | error => exact met
  | error => cases r' <;> exact met

theorem parallel_produce {goal goal' : Goal} (goals : GoalsAlike x goal goal') (live : x.live s.cursor)
    (starts : goal.Starts s) :
    Parallel x (produce goal) (produce goal') s s' (ResultsAlike x goal goal') goal.Stops := by
  cases goals with
  | statement => exact parallel_statement live
  | statements inBlock => exact parallel_statements live
  | expression above =>
    have whole : Parallel x (produce (.expression above)) (produce (.expression above)) s s'
        (fun e e' => e.seen x.view = e'.seen x.view') (Firm x) :=
      parallel_bind (parallel_operand live) fun left left' t t' lefts firm =>
        parallel_call_firm (.continued above lefts) firm.2 nofun
    exact whole.stops (.expression above) nofun
  | continued above lefts => exact (parallel_continued ⟨live, starts⟩ lefts).stops (.continued above _) nofun
  | moreExpressions =>
    exact (parallel_moreItems ⟨live, starts⟩ (fun _ _ _ => parallel_expression) fun _ _ firm =>
      parallel_call_firm .moreExpressions firm.2 nofun).stops .moreExpressions nofun
  | morePairs =>
    exact (parallel_moreItems ⟨live, starts⟩ (fun _ _ _ => parallel_pair) fun _ _ firm =>
      parallel_call_firm .morePairs firm.2 nofun).stops .morePairs nofun
  | moreParameters =>
    exact (parallel_moreItems ⟨live, starts⟩ (fun _ _ live => parallel_parameter live) fun _ _ firm =>
      parallel_call_firm .moreParameters firm.2 nofun).stops .moreParameters nofun

end Productions

/-- Where the first parser has an outcome, and all the calls for it are started and ended live, the second has one
that is alike. -/
theorem exists_returns_alike {goal goal' : Goal} {s s' t : State} {r : Except GivenUp goal.Result} {trace : Trace}
    (states : StatesAlike x s s') (goals : GoalsAlike x goal goal') (live : x.live s.cursor) (starts : goal.Starts s)
    (run : CallTree.Traces produce trace (produce goal s) r t)
    (lively : ∀ y ∈ trace, x.live y.start.cursor ∧ x.live y.state.cursor) :
    ∃ r' t', CallTree.Returns produce (produce goal' s') r' t' ∧
      EndsAlike x (ResultsAlike x goal goal') goal.Stops r t r' t' := by
  refine CallTree.InStep.exists_returns_of_traces (fun goal s goal' s' live calls => ?_)
    (parallel_produce goals live starts states) run lively
  obtain ⟨states, goals, starts⟩ := calls
  exact parallel_produce goals live starts states

end Parser

end Monkey
