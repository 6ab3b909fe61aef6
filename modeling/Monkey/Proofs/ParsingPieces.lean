import Monkey.Pieces
import Monkey.Proofs.BalancedReads
import Monkey.Proofs.GrammarComplete
import Monkey.Proofs.GrammarSound
import Monkey.Proofs.LexingPieces
import Monkey.Proofs.ParallelParsing
import Monkey.Proofs.Stretches

namespace Monkey

open Lexer (ofString)

theorem Cursor.ofLexer_congr {l l' : Lexer} (h : l.next = l'.next) : ofLexer l = ofLexer l' := by
  unfold ofLexer
  rw [h]

section Lexers

variable {l : Lexer}

/-- Behind the text one more brace is closed. -/
def Lexer.closed (l : Lexer) : Lexer := l.followedBy ['}']

theorem Lexer.exists_tokens_closed (settled : l.Settled) :
    ∃ b : Token, b.kind = .rbrace ∧ l.closed.tokens = l.tokens ++ [b] := by
  obtain ⟨braces, tokens, count, kinds⟩ := exists_tokens_followedBy_braces (settled.endsBefore ['}']) (j := 1)
  obtain ⟨b, rfl⟩ := List.length_eq_one_iff.1 count
  exact ⟨b, kinds b List.mem_cons_self, tokens⟩

theorem Lexer.peek_closed_iff (settled : l.Settled) {n : Nat} :
    (Cursor.ofLexer (l.closed.skip n)).peek.kind ≠ .eof ↔ n < l.tokens.length := by
  obtain ⟨b, _, tokens⟩ := exists_tokens_closed settled
  have count := congrArg List.length tokens
  have there := kind_skip_ne_eof_iff (l := l.closed) (n := n + 1)
  rw [List.length_append, List.length_singleton] at count
  rw [count, Nat.add_lt_add_iff_right] at there
  exact there

/-- A text with a brace after it, and with more after it, for as long as they are the same: up to its last token, which
is a semicolon. -/
def TextPair.ofPieces (settled : l.Settled) (more : List Char) : TextPair where
  view := .plain
  view' := .plain
  lexer := l.closed
  lexer' := l.followedBy more
  live c := c.peek.kind ≠ .eof
  wording n live := by
    have within := (Lexer.peek_closed_iff settled).1 live
    rw [Lexer.closed, (settled.endsBefore _).next_skip within, (settled.endsBefore _).next_skip within]
  span n live := by
    have within := (Lexer.peek_closed_iff settled).1 live
    rw [Lexer.closed, (settled.endsBefore _).next_skip within, (settled.endsBefore _).next_skip within]
  next n live other := by
    have within := (Lexer.peek_closed_iff settled).1 live
    refine (Lexer.peek_closed_iff settled).2 ?_
    by_contra last
    rw [Lexer.closed, (settled.endsBefore _).next_skip within] at other
    exact other (settled.kind_last (by omega))
  merge := congrArg₂ Span.merge
  number same := congrArg (· + 1) same

end Lexers

namespace Parser

variable {l : Lexer} {settled : l.Settled} {more : List Char} {s s' t : State} {ss : List Statement}

/-- The statements of a piece are read the same when more follows. -/
theorem Stretch.followedBy (h : Stretch s ss t) (aligned : s.Aligned) (there : t.cursor.current.kind ≠ .eof)
    (states : StatesAlike (.ofPieces settled more) s s') :
    ∃ t', Stretch s' ss t' ∧ StatesAlike (.ofPieces settled more) t t' := by
  induction h generalizing s' with
  | nil s => exact ⟨s', .nil s', states⟩
  | @cons s t u st ss here first rest ih =>
    obtain ⟨trace, moved, marks, run, account⟩ := exists_account aligned first
    have aligned' := aligned_advanced aligned account.cursor
    -- The statement that was read last is followed by a token as well, so all calls were live.
    have next : t.cursor.peek.kind ≠ .eof := by
      obtain ⟨n, left⟩ := rest.exists_advanced aligned'.advance
      exact kind_ne_eof_of_advanced .current aligned'.advance left there
    have live : s.cursor.peek.kind ≠ .eof := kind_ne_eof_of_advanced .peek aligned account.cursor next
    obtain ⟨r', t', returns, ends⟩ := exists_returns_alike _ states .statement live trivial run
      fun y mem => (account.calls y mem).peek_ne_eof next
    cases r' with
    | error => exact ends.elim
    | ok st' =>
      obtain ⟨states', same, _⟩ := ends
      have same : st.seen .plain = st'.seen .plain := same
      rw [Statement.seen_plain, Statement.seen_plain] at same
      subst same
      obtain ⟨u', stretch, states''⟩ := ih aligned'.advance there states'.advance
      have kinds := (states.current live).kind_eq
      exact ⟨u', .cons (kinds ▸ here) returns stretch, states''⟩

end Parser

namespace Complete

open Monkey.Parser

variable {first : String}

theorem settled (complete : Complete first) : (ofString first).Settled := by
  obtain ⟨t, last, semicolon⟩ := complete.ends
  rw [dropLast_lex] at last
  intro u last'
  cases last.symm.trans last'
  exact semicolon

theorem balance_tokens (complete : Complete first) : balance (ofString first).tokens = 0 := by
  rw [← balance_lex, balance_eq_countP, complete.balanced, Int.sub_self]

/-- Read with one brace more behind it, a complete piece ends before that brace. -/
theorem exists_stretch_closed (complete : Complete first) :
    ∃ ss t, Stretch { cursor := .ofLexer (ofString first).closed } ss t ∧ t.errors = #[] ∧ t.tokens.length = 1 := by
  obtain ⟨b, brace, tokens⟩ := Lexer.exists_tokens_closed complete.settled
  obtain ⟨missing, even, concat⟩ := (reads_parse complete.clean).closes trivial
  have none : missing = 0 := by
    rw [complete.balance_tokens] at even
    change (0 : Int) + 0 + missing = 0 at even
    omega
  subst none
  have reads : Grammar.Reads .statements _ ((ofString first).tokens ++ [b]) [b] :=
    concat [b] (List.forall_mem_singleton.2 brace)
  have start : State.Aligned { cursor := .ofLexer (ofString first).closed } := ⟨_, rfl⟩
  obtain ⟨ss, t, returns, _, errors, _, left⟩ := accepts_of_reads reads true
    (.inr ⟨rfl, b, [], rfl, brace⟩) _ start ((State.tokens_ofLexer rfl).trans tokens)
  have clean : t.errors.size ≤ 0 := Nat.le_of_eq (congrArg Array.size errors)
  exact ⟨ss, t, stretch_of_returns start returns clean, errors, congrArg List.length left⟩

/-- A complete piece is read as the same statements whatever follows it, up to where that begins. -/
theorem exists_stretch (complete : Complete first) :
    ∃ ss literals, ∀ rest : String, ∃ t, Stretch (.start (first ++ rest)) ss t ∧
      t.cursor = .ofLexer ((ofString rest).moved first.utf8ByteSize) ∧ t.errors = #[] ∧ t.literals = literals := by
  obtain ⟨ss, t, stretch, errors, one⟩ := complete.exists_stretch_closed
  refine ⟨ss, t.literals, fun rest => ?_⟩
  have whole : ofString (first ++ rest) = (ofString first).followedBy rest.toList := by
    rw [ofString, String.toList_append]
    rfl
  have start : StatesAlike (.ofPieces complete.settled rest.toList) { cursor := .ofLexer (ofString first).closed }
      (.start (first ++ rest)) := ⟨⟨0, rfl, congrArg Cursor.ofLexer whole⟩, .nil, rfl⟩
  have here : t.cursor.current.kind ≠ .eof := fun eof => by
    rw [State.tokens_eq_nil_iff.2 eof] at one
    cases one
  obtain ⟨t', stretch', states⟩ := stretch.followedBy ⟨_, rfl⟩ here start
  obtain ⟨n, left, right⟩ := states.window
  refine ⟨t', stretch', ?_, ?_, states.literals.symm⟩
  · have tokens := State.tokens_ofLexer left
    obtain ⟨b, _, all⟩ := Lexer.exists_tokens_closed complete.settled
    have count : (ofString first).closed.tokens.length - n = 1 := by
      rw [← List.length_drop, ← Lexer.tokens_skip, ← one, tokens]
      rfl
    rw [all, List.length_append, List.length_singleton] at count
    have last : n = (ofString first).tokens.length := by omega
    subst last
    have same : (ofString first).behind rest.toList = (ofString rest).moved first.utf8ByteSize := by
      rw [← byteSize_toList]
      rfl
    rw [right, ← same]
    exact Cursor.ofLexer_congr (complete.settled.endsBefore rest.toList).next_behind
  · have errors' := states.errors
    rw [errors] at errors'
    exact Array.toList_eq_nil_iff.1 (List.forall₂_nil_left_iff.1 errors')

end Complete

section Shifted

variable {source : String} {bytes : Nat}

theorem next_moved_ofString (room : source.utf8ByteSize + bytes ≤ Span.maxOffset) (n : Nat) :
    (((ofString source).moved bytes).skip n).next.1 = ((ofString source).skip n).next.1.shift bytes := by
  have room : (ofString source).offset + byteSize (ofString source).rest + bytes ≤ Span.maxOffset := by
    change 0 + byteSize source.toList + bytes ≤ Span.maxOffset
    rwa [byteSize_toList, Nat.zero_add]
  rw [Lexer.skip_moved room]
  rw [← Lexer.offset_skip _ n] at room
  rw [Lexer.next_moved room]

theorem Span.shift_merge (s t : Span) : (s.merge t).shift bytes = (s.shift bytes).merge (t.shift bytes) := by
  simp only [shift, merge, Nat.add_min_add_right, Nat.add_max_add_right]

/-- A text, and the same text further on. -/
def TextPair.ofShift (room : source.utf8ByteSize + bytes ≤ Span.maxOffset) (literals : Nat) : TextPair where
  view := .shift bytes literals
  view' := .plain
  lexer := ofString source
  lexer' := (ofString source).moved bytes
  live _ := True
  wording n _ := by
    rw [next_moved_ofString room]
    rfl
  span n _ := by
    rw [next_moved_ofString room]
    rfl
  next _ _ _ := trivial
  merge := by
    rintro a b _ _ rfl rfl
    exact Span.shift_merge a b
  number := by
    rintro n _ rfl
    exact Nat.add_right_comm n 1 literals

theorem SameFinding.eq_shift {t t' : Token} {e e' : ParseError} (finding : SameFinding t t' e e')
    (same : t' = t.shift bytes) : e' = e.shift bytes := by
  subst same
  cases finding <;> rfl

/-- Where a text is read further on, the statements are the same further on, and so are the errors. -/
theorem exists_returns_moved (room : source.utf8ByteSize + bytes ≤ Span.maxOffset) {s : Parser.State}
    (cursor : s.cursor = .ofLexer ((ofString source).moved bytes)) (errors : s.errors = #[]) :
    ∃ t, CallTree.Returns Parser.produce (Parser.produce (.statements false) s)
        (.ok ((parse source).program.shift bytes s.literals).statements) t ∧
      t.errors.toList = (parse source).errors.map (ParseError.shift bytes) := by
  obtain ⟨ss, t, returns, parsed⟩ := Parser.exists_returns_program source
  obtain ⟨trace, run⟩ := returns.exists_traces
  have start : Parser.StatesAlike (.ofShift room s.literals) (.start source) s :=
    ⟨⟨0, rfl, cursor⟩, by rw [errors]; exact .nil, Nat.zero_add _⟩
  obtain ⟨r', t', returns', ends⟩ := Parser.exists_returns_alike _ start (.statements false) trivial trivial run
    fun _ _ => ⟨trivial, trivial⟩
  cases r' with
  | error => exact ends.elim
  | ok ss' =>
    obtain ⟨states, same, _⟩ := ends
    have same : ss.map (Statement.seen (.shift bytes s.literals)) = ss'.map (Statement.seen .plain) := same
    rw [map_seen_plain] at same
    rw [parsed, Program.shift, Program.mapSpans, mapStatements_eq_map]
    refine ⟨t', same ▸ returns', ?_⟩
    have shifted : List.Forall₂ (fun e e' => e' = ParseError.shift bytes e) t.errors.toList t'.errors.toList := by
      refine states.errors.imp fun e e' => ?_
      rintro ⟨u, u', ⟨n, _, rfl, rfl⟩, finding⟩
      exact finding.eq_shift (next_moved_ofString room n)
    exact (List.forall₂_eq_eq_eq ▸ List.forall₂_map_left_iff.2 (shifted.imp fun _ _ => Eq.symm)).symm

end Shifted

/-- What the loop of statements yields is what is read of a text. -/
theorem parse_of_returns {source : String} {ss : List Statement} {t : Parser.State}
    (h : CallTree.Returns Parser.produce (Parser.produce (.statements false) (.start source)) (.ok ss) t) :
    parse source = ⟨⟨ss⟩, t.errors.toList⟩ := by
  obtain ⟨ss', t', returns, parsed⟩ := Parser.exists_returns_program source
  obtain ⟨same, rfl⟩ := h.unique returns
  cases same
  exact parsed

/-- After a complete piece the text is read as if it stood alone: as the statements of the piece and then those of the
rest, and whatever is wrong is wrong with the rest. The rest stands as many bytes further on as the piece is long, and
its function literals are numbered from those of the piece on. -/
theorem Complete.exists_parse_append {first : String} (complete : Complete first) :
    ∃ literals, ∀ rest : String, (first ++ rest).utf8ByteSize < UInt32.size →
      (parse (first ++ rest)).program.statements = (parse first).program.statements ++
        ((parse rest).program.shift first.utf8ByteSize literals).statements ∧
      (parse (first ++ rest)).errors = (parse rest).errors.map (ParseError.shift first.utf8ByteSize) := by
  obtain ⟨ss, literals, stretches⟩ := complete.exists_stretch
  have alone : parse first = ⟨⟨ss⟩, []⟩ := by
    obtain ⟨t, stretch, cursor, errors, _⟩ := stretches ""
    have eof : t.cursor.current.kind = .eof := by rw [cursor]; rfl
    have ends : CallTree.Returns Parser.produce (Parser.produce (.statements false) t) (.ok []) t := by
      rw [Parser.produce_statements_of_closed (.inl eof)]
      exact .done _ _
    have whole := parse_of_returns (stretch.returns ends)
    rwa [String.append_empty, List.append_nil, errors] at whole
  refine ⟨literals, fun rest short => ?_⟩
  obtain ⟨t, stretch, cursor, errors, rfl⟩ := stretches rest
  have room : rest.utf8ByteSize + first.utf8ByteSize ≤ Span.maxOffset := by
    rw [String.utf8ByteSize_append] at short
    exact Nat.le_pred_of_lt (Nat.add_comm _ _ ▸ short)
  obtain ⟨u, returns, shifted⟩ := exists_returns_moved room cursor errors
  rw [parse_of_returns (stretch.returns returns), alone]
  exact ⟨rfl, shifted⟩

/-- After a complete piece the text is read as if it stood alone, further on. So a text that is cut into complete
pieces and a rest is read as the same statements piece by piece, and whatever is wrong is wrong with the rest. -/
theorem parse_pieces :
    (∀ {first : String}, Complete first → ∃ literals, ∀ rest : String, (first ++ rest).utf8ByteSize < UInt32.size →
      (parse (first ++ rest)).program.statements = (parse first).program.statements ++
        ((parse rest).program.shift first.utf8ByteSize literals).statements ∧
      (parse (first ++ rest)).errors = (parse rest).errors.map (ParseError.shift first.utf8ByteSize)) ∧
    ∀ (pieces : List String) (rest : String), (∀ piece ∈ pieces, Complete piece) →
      (String.join pieces ++ rest).utf8ByteSize < UInt32.size →
      (parse (String.join pieces ++ rest)).program.eraseSpans.statements =
        (pieces ++ [rest]).flatMap (fun piece => (parse piece).program.eraseSpans.statements) ∧
      (parse (String.join pieces ++ rest)).errors =
        (parse rest).errors.map (ParseError.shift (String.join pieces).utf8ByteSize) := by
  refine ⟨Complete.exists_parse_append, fun pieces rest complete short => ?_⟩
  induction pieces with
  | nil =>
    rw [String.join_nil, String.empty_append]
    refine ⟨(List.flatMap_singleton _ _).symm, ?_⟩
    exact ((List.map_congr_left fun e _ => e.shift_zero).trans (List.map_id _)).symm
  | cons piece pieces ih =>
    obtain ⟨first, others⟩ := List.forall_mem_cons.1 complete
    obtain ⟨literals, append⟩ := first.exists_parse_append
    rw [String.join_cons, String.append_assoc] at short ⊢
    obtain ⟨statements, errors⟩ := append _ short
    rw [String.utf8ByteSize_append] at short
    obtain ⟨statements', errors'⟩ := ih others (by omega)
    constructor
    · have same := congrArg Program.statements
        (Program.eraseSpans_shift piece.utf8ByteSize literals (parse (String.join pieces ++ rest)).program)
      rw [List.cons_append, List.flatMap_cons, ← statements', ← same, Program.statements_eraseSpans, statements,
        List.map_append, ← Program.statements_eraseSpans, ← Program.statements_eraseSpans]
    · rw [errors, errors', List.map_map, String.utf8ByteSize_append]
      exact List.map_congr_left fun e _ => e.shift_shift _ _

/-- A complete piece, once and twice, with a rest in which a name is missing and a block is cut off. -/
theorem parse_pieces_cutBlock :
    let piece := "let f = fn(x) \x7b x; \x7d;"
    let rest := "let = 2; if (f) \x7b +"
    Complete piece ∧ (piece ++ rest).utf8ByteSize < UInt32.size ∧
      (piece ++ (piece ++ rest)).utf8ByteSize < UInt32.size ∧
      (∃ literals, (parse (piece ++ rest)).program.statements =
        (parse piece).program.statements ++ ((parse rest).program.shift 21 literals).statements) ∧
      (parse (piece ++ (piece ++ rest))).errors = [.unexpectedToken .ident .assign ⟨46, 47⟩,
        .noExpression .assign ⟨46, 47⟩, .noExpression .plus ⟨60, 61⟩] := by
  intro piece rest
  have complete : Complete piece := by
    have ends : (lex piece).dropLast.getLast?.map (·.kind) = some .semicolon := by decide +kernel
    exact ⟨by decide +kernel, Option.map_eq_some_iff.1 ends, by decide +kernel⟩
  have short : (piece ++ rest).utf8ByteSize < UInt32.size := by decide
  have short' : (piece ++ (piece ++ rest)).utf8ByteSize < UInt32.size := by decide
  obtain ⟨literals, append⟩ := parse_pieces.1 complete
  have twice : (parse (String.join [piece, piece] ++ rest)).errors =
      (parse rest).errors.map (ParseError.shift (String.join [piece, piece]).utf8ByteSize) :=
    (parse_pieces.2 [piece, piece] rest (by simpa using complete) short').2
  have errors : (parse rest).errors = [.unexpectedToken .ident .assign ⟨4, 5⟩, .noExpression .assign ⟨4, 5⟩,
      .noExpression .plus ⟨18, 19⟩] := by decide +kernel
  rw [errors] at twice
  exact ⟨complete, short, short', ⟨literals, (append rest short).1⟩, twice⟩

end Monkey
