import Monkey.Proofs.Discipline
import Monkey.Proofs.LongestMatch
import Monkey.Proofs.ParserTotal
import Monkey.Proofs.WrittenForm

namespace Monkey

theorem TokenKind.Matches.isIdentifier {kind : TokenKind} {text : List Char} (h : Matches kind text)
    (ident : kind = .ident) : isIdentifier (String.ofList text) := by
  cases h with
  | sign listed =>
    subst ident
    revert listed
    decide
  | @word c cs start parts =>
    rw [isIdentifier_iff]
    exact ⟨c, cs, String.toList_ofList, start, List.all_eq_true.2 parts, ident⟩
  | digits _ _ => cases ident
  | closed _ => cases ident
  | unclosed _ => cases ident

/-- A token of which the literal can stand in a tree, if its kind is one of those that do. -/
structure Token.Genuine (t : Token) : Prop where
  identifier : t.kind = .ident → isIdentifier t.literal
  plain : t.kind = .str → '"' ∉ t.literal.toList

theorem Token.Fits.genuine {t : Token} {text rest : List Char} (h : t.Fits text rest) : t.Genuine where
  identifier ident := by
    have literal := h.literal
    rw [if_neg (by simp [ident])] at literal
    rcases h.longest with ⟨accepted, _⟩ | ⟨illegal, _⟩
    · have identifier := accepted.isIdentifier ident
      rwa [literal, String.ofList_toList] at identifier
    · rw [illegal] at ident
      cases ident
  plain str := by
    have literal := h.literal
    rw [if_pos str] at literal
    exact literal.1

theorem Token.genuine_eof (offset : Nat) : (Token.eof offset).Genuine where
  identifier same := absurd same (by decide : TokenKind.eof ≠ .ident)
  plain same := absurd same (by decide : TokenKind.eof ≠ .str)

theorem Lexer.genuine_next (l : Lexer) : l.next.1.Genuine := by
  rw [next, scan]
  split
  · exact Token.genuine_eof _
  · next c cs skipped =>
    have first := List.head?_dropWhile_not isBlank l.rest
    have visible : isBlank c = false := by
      have here : l.rest.dropWhile isBlank = c :: cs := skipped
      simpa [here] using first
    exact (Lexeme.fits_scan visible _).genuine

theorem listIsWellFormed_iff {es : List Expr} : listIsWellFormed es ↔ ∀ e ∈ es, e.isWellFormed := by
  induction es with
  | nil => simp [listIsWellFormed]
  | cons e es ih => simp [listIsWellFormed, ih]

/-- A pair of a hash of which both parts are well-formed. -/
def PairIsWellFormed (p : Expr × Expr) : Prop := p.1.isWellFormed ∧ p.2.isWellFormed

theorem pairsAreWellFormed_iff {ps : List (Expr × Expr)} : pairsAreWellFormed ps ↔ ∀ p ∈ ps, PairIsWellFormed p := by
  induction ps with
  | nil => simp [pairsAreWellFormed]
  | cons p ps ih => simp [pairsAreWellFormed, PairIsWellFormed, ih, and_assoc]

theorem statementsAreWellFormed_iff {ss : List Statement} :
    statementsAreWellFormed ss ↔ ∀ s ∈ ss, s.isWellFormed := by
  induction ss with
  | nil => simp [statementsAreWellFormed]
  | cons s ss ih => simp [statementsAreWellFormed, ih]

namespace Parser

theorem State.Aligned.genuine_current {s : State} (h : s.Aligned) : s.cursor.current.Genuine := by
  obtain ⟨l, window⟩ := h
  rw [window]
  exact l.genuine_next

/-- The results of the goal that are well-formed. -/
def IsWellFormed : (goal : Goal) → goal.Result → Prop
  | .statement, s => s.isWellFormed
  | .statements _, ss => ∀ s ∈ ss, s.isWellFormed
  | .expression _, e | .continued _ _, e => e.isWellFormed
  | .moreExpressions, es => ∀ e ∈ es, e.isWellFormed
  | .morePairs, ps => ∀ p ∈ ps, PairIsWellFormed p
  | .moreParameters, ps => ∀ id ∈ ps, isIdentifier id.name

/-- What the goal starts with is well-formed. -/
def Goal.WellFormed : Goal → Prop
  | .continued _ left => left.isWellFormed
  | _ => True

/-- Whatever there is to read, the cursor stays a window on two tokens in a row, and what is read is good. -/
def Gives {α : Type} (good : α → Prop) (r : Except GivenUp α) (t : State) : Prop :=
  t.Aligned ∧ ∀ a, r = .ok a → good a

/-- From well-formed expressions well-formed ones are built. -/
def wellFormedness : Discipline (fun s : State => s) State.advance State.countLiteral where
  Calls goal s := s.Aligned ∧ goal.WellFormed
  Kept goal _ _ := Gives (IsWellFormed goal)
  Holds := State.Aligned
  Moves _ _ _ := True
  GivesUp _ _ := State.Aligned
  lawful.state_onward _ := rfl
  lawful.state_numbered _ := rfl
  lawful.holds_onward := State.Aligned.advance
  lawful.holds_numbered := State.Aligned.countLiteral
  lawful.refl _ := trivial
  lawful.trans _ _ := trivial
  lawful.givesUp _ aligned := aligned
  lawful.moves_onward _ := trivial
  lawful.moves_numbered _ := trivial
  lawful.fail aligned _ := aligned.fail _

/-- The production, started in `s`, yields good nodes or gives up, if all goals yield well-formed ones. -/
abbrev Yields {α : Type} (m : Parser α) (s : State) (good : α → Prop) : Prop := wellFormedness.Has m s fun a _ => good a

section Productions

variable {α : Type} {good : α → Prop} {s : State}

theorem ends_iff_gives {trace : Trace} {r : Except GivenUp α} {t : State} :
    wellFormedness.Ends s (fun a _ => good a) trace r t ↔ Gives good r t :=
  Discipline.ends_iff (and_iff_left trivial) .rfl

theorem yields_call (goal : Goal) (wf : goal.WellFormed) : Yields (Routine.call goal) s (IsWellFormed goal) :=
  .call (fun aligned => ⟨aligned, wf⟩) fun _ _ _ _ kept => ends_iff_gives.2 kept

theorem yields_expression : Yields expression s (·.isWellFormed) := yields_call (.expression .lowest) trivial

theorem yields_moreItems {item : Parser α} {more : Parser (List α)} (items : ∀ t, Yields item t good)
    (others : ∀ t, Yields more t fun as => ∀ a ∈ as, good a) :
    Yields (moreItems item more) s fun as => ∀ a ∈ as, good a := by
  refine .moreItems (fun _ => nofun) (fun _ => items _) fun a t _ _ first => ?_
  exact (others t).mono fun as _ _ rest => List.forall_mem_cons.2 ⟨first, rest⟩

theorem yields_bracketed {closing : TokenKind} {item : Parser α} {more : Parser (List α)}
    (items : ∀ t, Yields item t good) (others : ∀ t, Yields more t fun as => ∀ a ∈ as, good a) :
    Yields (bracketed closing item more) s fun as => ∀ a ∈ as, good a := by
  refine .bracketed (fun _ => nofun) (items _) fun a t _ first => ?_
  exact (others t).mono fun as _ _ rest _ => List.forall_mem_cons.2 ⟨first, rest⟩

theorem yields_parameter : Yields parameter s fun id => isIdentifier id.name := by
  unfold parameter
  refine .intro fun (aligned : s.Aligned) => .current ?_
  split
  · next ident => exact .pure (aligned.genuine_current.identifier ident)
  · exact .fail .current (.unexpected .ident)

theorem yields_pair : Yields pair s PairIsWellFormed := by
  unfold pair
  refine .bind yields_expression fun key t _ keyWf => .expectPeek fun _ => .advance ?_
  exact .bind yields_expression fun value u _ valueWf => .pure ⟨keyWf, valueWf⟩

theorem yields_block : Yields block s (·.isWellFormed) := by
  unfold block
  refine .current (.advance (.bind (yields_call (.statements true) trivial) fun ss t _ wf => ?_))
  exact .spanFrom (.pure (statementsAreWellFormed_iff.2 wf))

theorem yields_alternative : Yields alternative s (alternativeIsWellFormed ·) := by
  unfold alternative
  refine .peekKind ?_
  split
  · refine .advance (.expectPeek fun _ => ?_)
    exact .bind yields_block fun b t _ wf => .pure wf
  · exact .pure rfl

theorem yields_integer : Yields integer s (·.isWellFormed) := by
  unfold integer
  refine .current ?_
  dsimp only
  split
  · next fits =>
    have largest : Int64.maxValue.toInt.toNat = 2 ^ 63 - 1 := by decide
    refine .pure ?_
    rw [Expr.isWellFormed, decide_eq_true_iff, Int64.toInt_ofNat_of_lt (by omega)]
    omega
  · exact .fail .current .tooLarge

theorem yields_unary {op : UnaryOp} : Yields (unary op) s (·.isWellFormed) := by
  unfold unary
  refine .current (.advance (.bind (yields_call (.expression .unary) trivial) fun e t _ wf => ?_))
  exact .spanFrom (.pure wf)

theorem yields_grouped : Yields grouped s (·.isWellFormed) := by
  unfold grouped
  exact .advance (.bind yields_expression fun e t _ wf => .expectPeek fun _ => .pure wf)

theorem yields_conditional : Yields conditional s (·.isWellFormed) := by
  unfold conditional
  refine .current (.expectPeek fun _ => .advance (.bind yields_expression fun c t _ conditionWf => ?_))
  refine .expectPeek fun _ => .expectPeek fun _ => .bind yields_block fun b u _ blockWf => ?_
  refine .bind yields_alternative fun a v _ alternativeWf => .spanFrom (.pure ?_)
  simp only [Expr.isWellFormed, Bool.and_eq_true]
  exact ⟨⟨conditionWf, blockWf⟩, alternativeWf⟩

theorem yields_function : Yields function s (·.isWellFormed) := by
  have parameters (t : State) : Yields (bracketed .rparen parameter moreParameters) t fun ps =>
      ∀ id ∈ ps, isIdentifier id.name :=
    yields_bracketed (fun _ => yields_parameter) fun _ => yields_call .moreParameters trivial
  unfold function
  refine .current (.expectPeek fun _ => .bind (parameters _) fun ps t _ parametersWf => ?_)
  refine .expectPeek fun _ => .bind yields_block fun b u _ blockWf => .spanFrom (.freshLiteral (.pure ?_))
  simp only [Expr.isWellFormed, Bool.and_eq_true, List.all_eq_true]
  exact ⟨parametersWf, blockWf⟩

theorem yields_expressionList {closing : TokenKind} :
    Yields (expressionList closing) s fun es => ∀ e ∈ es, e.isWellFormed :=
  yields_bracketed (fun _ => yields_expression) fun _ => yields_call .moreExpressions trivial

theorem yields_array : Yields array s (·.isWellFormed) := by
  unfold array
  refine .current (.bind yields_expressionList fun es t _ wf => .spanFrom (.pure ?_))
  exact listIsWellFormed_iff.2 wf

theorem yields_hash : Yields hash s (·.isWellFormed) := by
  have pairs : Yields (bracketed .rbrace pair morePairs) s fun ps => ∀ p ∈ ps, PairIsWellFormed p :=
    yields_bracketed (fun _ => yields_pair) fun _ => yields_call .morePairs trivial
  unfold hash
  refine .current (.bind pairs fun ps t _ wf => .spanFrom (.pure ?_))
  exact pairsAreWellFormed_iff.2 wf

theorem yields_operand : Yields operand s (·.isWellFormed) := by
  unfold operand
  refine .intro fun (aligned : s.Aligned) => .current ?_
  have genuine := aligned.genuine_current
  split
  · next ident => exact .pure (genuine.identifier ident)
  · exact yields_integer
  · next str =>
    have plain := genuine.plain str
    exact .pure (by simpa [Expr.isWellFormed] using plain)
  · exact .pure rfl
  · exact .pure rfl
  · exact yields_unary
  · exact yields_unary
  · exact yields_grouped
  · exact yields_conditional
  · exact yields_function
  · exact yields_array
  · exact yields_hash
  · exact .fail .current .noExpression

theorem yields_extend {left : Expr} {c : Continuation} (leftWf : left.isWellFormed) :
    Yields (extend left c) s (·.isWellFormed) := by
  unfold extend
  cases c with
  | binary op =>
    refine .advance (.bind (yields_call (.expression op.precedence) trivial) fun r t _ rightWf => .pure ?_)
    simp only [Expr.isWellFormed, Bool.and_eq_true]
    exact ⟨leftWf, rightWf⟩
  | call =>
    refine .bind yields_expressionList fun arguments t _ wf => .spanFrom (.pure ?_)
    simp only [Expr.isWellFormed, Bool.and_eq_true]
    exact ⟨leftWf, listIsWellFormed_iff.2 wf⟩
  | index =>
    refine .advance (.bind yields_expression fun i t _ indexWf => .expectPeek fun _ => .spanFrom (.pure ?_))
    simp only [Expr.isWellFormed, Bool.and_eq_true]
    exact ⟨leftWf, indexWf⟩

theorem yields_letStatement : Yields letStatement s (·.isWellFormed) := by
  unfold letStatement
  refine .current (.expectPeek fun ident => .intro fun (aligned : s.advance.Aligned) => .current ?_)
  have identifier := aligned.genuine_current.identifier ident
  refine .expectPeek fun _ => .advance (.bind yields_expression fun e t _ wf => ?_)
  refine .skipSemicolon fun u _ _ _ => .spanFrom (.pure ?_)
  simp only [Statement.isWellFormed, Bool.and_eq_true]
  exact ⟨identifier, wf⟩

theorem yields_returnValue : Yields returnValue s fun value => ∀ e ∈ value, e.isWellFormed := by
  unfold returnValue
  refine .peekKind ?_
  split
  · exact .pure nofun
  · exact .pure nofun
  · exact .pure nofun
  · refine .advance (.bind yields_expression fun e t _ wf => .pure fun e' mem => ?_)
    cases mem
    exact wf

theorem yields_returnStatement : Yields returnStatement s (·.isWellFormed) := by
  unfold returnStatement
  refine .current (.bind yields_returnValue fun value t _ wf => .skipSemicolon fun u _ _ _ => .spanFrom (.pure ?_))
  cases value with
  | none => rfl
  | some e => exact wf e rfl

theorem yields_statement : Yields (produce .statement) s (IsWellFormed .statement) := by
  unfold produce
  refine .current ?_
  split
  · exact yields_letStatement
  · exact yields_returnStatement
  · exact .bind yields_expression fun e t _ wf => .skipSemicolon fun u _ _ _ => .pure wf

/-- Statements that are given up leave no trace. -/
theorem yields_statements {inBlock : Bool} :
    Yields (produce (.statements inBlock)) s (IsWellFormed (.statements inBlock)) := by
  unfold produce
  refine .current ?_
  dsimp only
  split
  · exact .pure nofun
  · refine .attempt (fun aligned => ⟨aligned, trivial⟩) fun _ inside read t met => ?_
    refine ⟨t.advance, rfl, met.1.advance, trivial, ?_⟩
    refine .bind (yields_call (.statements inBlock) trivial) fun rest u _ restWf => ?_
    cases read with
    | ok st => exact .pure (List.forall_mem_cons.2 ⟨met.2 st rfl, restWf⟩)
    | error _ => exact .pure restWf

theorem yields_continued {above : Precedence} {left : Expr} (leftWf : left.isWellFormed) :
    Yields (produce (.continued above left)) s (IsWellFormed (.continued above left)) := by
  unfold produce
  refine .peekKind ?_
  split
  · split
    · exact .advance (.bind (yields_extend leftWf) fun e t _ wf => yields_call (.continued above e) wf)
    · exact .pure leftWf
  · exact .pure leftWf

theorem produce_yields (goal : Goal) (wf : goal.WellFormed) : Yields (produce goal) s (IsWellFormed goal) := by
  cases goal with
  | statement => exact yields_statement
  | statements inBlock => exact yields_statements
  | expression above =>
    exact .bind yields_operand fun left t _ leftWf => yields_call (.continued above left) leftWf
  | continued above left => exact yields_continued wf
  | moreExpressions => exact yields_moreItems (fun _ => yields_expression) fun _ => yields_call .moreExpressions trivial
  | morePairs => exact yields_moreItems (fun _ => yields_pair) fun _ => yields_call .morePairs trivial
  | moreParameters => exact yields_moreItems (fun _ => yields_parameter) fun _ => yields_call .moreParameters trivial

/-- Every goal keeps what is known of its calls. -/
theorem keeps_wellFormedness (goal : Goal) (s : State) (calls : wellFormedness.Calls goal s) :
    (produce goal s).Charts wellFormedness.Calls wellFormedness.Kept (wellFormedness.Kept goal s) :=
  (produce_yields goal calls.2 calls.1).mono fun _ _ _ ends => ends_iff_gives.1 ends

end Productions

end Parser

open Monkey.Parser in
theorem isWellFormed_parse (source : String) : (parse source).program.isWellFormed := by
  obtain ⟨ss, s, returns, same⟩ := exists_returns_parse source
  obtain ⟨trace, run⟩ := returns.exists_traces
  have start : Yields (statements false) (State.start source) (IsWellFormed (.statements false)) :=
    yields_call _ trivial
  obtain ⟨_, _, _, _, wf⟩ := run.charts keeps_wellFormedness (start (State.aligned_start source))
  rw [same]
  exact statementsAreWellFormed_iff.2 wf

/-- The written form of a well-formed program stands for it in the grammar. -/
theorem reads_render {p : Program} (wf : p.isWellFormed) :
    Grammar.Reads .statements p.statements (Lexer.ofString p.render).tokens [] := by
  have whole : (Lexer.ofString p.render).rest = (renderStatements p.statements).toList ++ [] :=
    (List.append_nil _).symm
  obtain ⟨l, rest, reads⟩ := spells_statements (statementsSpelled p.statements wf) _ [] whole apart_nil
  have ends : l.tokens = [] := by
    refine Lexer.tokens_of_eof (Lexer.next_kind_eq_eof_iff.2 ?_)
    rw [rest]
    rfl
  rw [ends] at reads
  exact reads fun t next => nomatch next

theorem render_eq_of_eraseSpans {p q : Program} (same : p.eraseSpans = q.eraseSpans) : p.render = q.render := by
  have erased := congrArg Program.render same
  rwa [Program.eraseSpans, Program.eraseSpans, Program.render_mapSpans, Program.render_mapSpans] at erased

/-- What is left of a text, with errors or without, is well-formed. It is read back from its written form without
errors, and that form stays as it is from then on. -/
theorem parse_survives (source : String) :
    (parse source).program.isWellFormed ∧ (parse (parse source).program.render).errors = [] ∧
      (parse (parse source).program.render).program.eraseSpans = (parse source).program.eraseSpans ∧
      (parse (parse source).program.render).program.render = (parse source).program.render := by
  have wf := isWellFormed_parse source
  obtain ⟨clean, same⟩ := parse_of_reads (reads_render wf)
  exact ⟨wf, clean, same, render_eq_of_eraseSpans same⟩

end Monkey
