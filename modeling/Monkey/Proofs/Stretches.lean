import Monkey.Proofs.DroppedStatements
import Monkey.Proofs.ErrorPositions

namespace Monkey

namespace Parser

open CallTree (Returns Traces returns_call_iff returns_andThen_iff returns_done_iff)

/-- Statements that are read one after the other, from `s` to `t`, with none dropped among them. -/
inductive Stretch : State → List Statement → State → Prop
  | nil (s : State) : Stretch s [] s
  | cons {s t u : State} {st : Statement} {ss : List Statement} : s.cursor.current.kind ≠ .eof →
      Returns produce (produce .statement s) (.ok st) t → Stretch t.advance ss u → Stretch s (st :: ss) u

section Stretch

variable {s t u : State} {ss more : List Statement} {inBlock : Bool}

/-- What the loop of statements makes of one more, if it was read. -/
def prepend : Except GivenUp Statement → List Statement → List Statement
  | .ok st, ss => st :: ss
  | .error _, ss => ss

theorem produce_statements_of_closed
    (closed : s.cursor.current.kind = .eof ∨ inBlock ∧ s.cursor.current.kind = .rbrace) :
    produce (.statements inBlock) s = .done (.ok []) s := by
  change (if _ then pure [] else _ : Parser (List Statement)) s = _
  rw [if_pos closed]
  rfl

/-- Where the loop of statements does not end, it reads a statement or drops it, and goes on. -/
theorem returns_statements_iff
    (other : ¬ (s.cursor.current.kind = .eof ∨ inBlock ∧ s.cursor.current.kind = .rbrace)) :
    Returns produce (produce (.statements inBlock) s) (.ok ss) t ↔
      ∃ read u rest, Returns produce (produce .statement s) read u ∧
        Returns produce (produce (.statements inBlock) u.advance) (.ok rest) t ∧ ss = prepend read rest := by
  have step : produce (.statements inBlock) s = .call .statement s fun read u =>
      .call (.statements inBlock) u.advance fun rest v => (CallTree.done rest v).andThen fun ss v =>
        .done (.ok (prepend read ss)) v := by
    change (if _ then pure [] else _ : Parser (List Statement)) s = _
    rw [if_neg other]
    refine congrArg (CallTree.call Goal.statement s) (funext fun read => funext fun u => ?_)
    cases read <;> rfl
  rw [step]
  constructor
  · intro h
    obtain ⟨read, u, first, h⟩ := returns_call_iff.1 h
    obtain ⟨rest, v, others, h⟩ := returns_call_iff.1 h
    rcases returns_andThen_iff.1 h with ⟨rest, v, done, last⟩ | ⟨e, _, never⟩
    · obtain ⟨rfl, rfl⟩ := returns_done_iff.1 done
      obtain ⟨same, rfl⟩ := returns_done_iff.1 last
      exact ⟨read, u, rest, first, others, Except.ok.inj same⟩
    · cases never
  · rintro ⟨read, u, rest, first, others, rfl⟩
    exact .call first (.call others (.done _ _))

/-- After the stretch the loop goes on. -/
theorem Stretch.returns (h : Stretch s ss t) (rest : Returns produce (produce (.statements false) t) (.ok more) u) :
    Returns produce (produce (.statements false) s) (.ok (ss ++ more)) u := by
  induction h with
  | nil s => exact rest
  | cons here first _ ih => exact (returns_statements_iff (by simpa using here)).2 ⟨_, _, _, first, ih rest, rfl⟩

theorem exists_account {goal : Goal} {r : Except GivenUp goal.Result} (aligned : s.Aligned)
    (run : Returns produce (produce goal s) r t) :
    ∃ trace moved marks, Traces produce trace (produce goal s) r t ∧ Account s moved marks trace r t := by
  obtain ⟨trace, run⟩ := run.exists_traces
  obtain ⟨moved, marks, account⟩ := tally_of_traces (produce_tallies goal s) aligned run
  exact ⟨trace, moved, marks, run, account⟩

theorem State.tokens_advanced {n : Nat} (aligned : s.Aligned) (moved : t.cursor = s.cursor.advanced n) :
    t.tokens = s.tokens.drop n := by
  obtain ⟨l, window⟩ := aligned
  rw [window, Cursor.advanced_ofLexer] at moved
  rw [tokens_ofLexer window, tokens_ofLexer moved, Lexer.tokens_skip]

/-- The token behind those that are passed is taken, if there was one at first. -/
theorem State.length_tokens_advance_lt {n : Nat} (aligned : s.Aligned) (moved : t.cursor = s.cursor.advanced n)
    (open_ : s.cursor.current.kind ≠ .eof) : t.advance.tokens.length < s.tokens.length := by
  have some : 0 < s.tokens.length := List.length_pos_iff.2 fun none => open_ (State.tokens_eq_nil_iff.1 none)
  rw [State.tokens_advance (aligned_advanced aligned moved), State.tokens_advanced aligned moved, List.length_tail,
    List.length_drop]
  omega

theorem Account.size_errors {α : Type} {moved : Nat} {marks : List Mark} {trace : Trace} {r : Except GivenUp α}
    (h : Account s moved marks trace r t) : s.errors.size + ownErrors r ≤ t.errors.size := by
  obtain ⟨ofDropped, own, errors, _, count⟩ := Tally.appends ⟨moved, marks, h⟩
  have sizes := congrArg List.length errors
  simp only [List.length_append, Array.length_toList, count] at sizes
  omega

/-- Where nothing is found to be wrong, no statement was dropped. -/
theorem stretch_of_returns (aligned : s.Aligned) (h : Returns produce (produce (.statements inBlock) s) (.ok ss) t)
    (clean : t.errors.size ≤ s.errors.size) : Stretch s ss t := by
  induction size : s.tokens.length using Nat.strongRecOn generalizing s ss with
  | ind left ih =>
    by_cases closed : s.cursor.current.kind = .eof ∨ inBlock ∧ s.cursor.current.kind = .rbrace
    · rw [produce_statements_of_closed closed] at h
      obtain ⟨same, rfl⟩ := returns_done_iff.1 h
      cases same
      exact .nil t
    · obtain ⟨read, u, rest, first, others, rfl⟩ := (returns_statements_iff closed).1 h
      obtain ⟨_, moved, _, _, account⟩ := exists_account aligned first
      have aligned' := (aligned_advanced aligned account.cursor).advance
      obtain ⟨_, _, _, _, account'⟩ := exists_account aligned' others
      have before := account.size_errors
      have after : u.errors.size + 0 ≤ t.errors.size := account'.size_errors
      cases read with
      | error e =>
        change s.errors.size + 1 ≤ u.errors.size at before
        omega
      | ok st =>
        have open_ : s.cursor.current.kind ≠ .eof := fun eof => closed (.inl eof)
        have shorter := State.length_tokens_advance_lt aligned account.cursor open_
        exact .cons open_ first (ih _ (size ▸ shorter) aligned' others (Nat.le_trans clean before) rfl)

/-- A slot of the cursor has not come to the end of the text where it has not later. -/
theorem kind_ne_eof_of_advanced (slot : Cursor.Slot) {n : Nat} (aligned : s.Aligned)
    (moved : t.cursor = s.cursor.advanced n) (more : (t.cursor.token slot).kind ≠ .eof) :
    (s.cursor.token slot).kind ≠ .eof := by
  obtain ⟨l, window⟩ := aligned
  have here : (Cursor.ofLexer l).token slot = (l.skip (0 + slot.ahead)).next.1 := Cursor.token_ofLexer l 0 slot
  rw [moved, window, Cursor.advanced_ofLexer, Cursor.token_ofLexer, Lexer.kind_skip_ne_eof_iff] at more
  rw [window, here, Lexer.kind_skip_ne_eof_iff]
  omega

theorem Passed.peek_ne_eof {x : CallTree.Ended Goal.Result State GivenUp} (h : Passed s t x)
    (more : t.cursor.peek.kind ≠ .eof) : x.start.cursor.peek.kind ≠ .eof ∧ x.state.cursor.peek.kind ≠ .eof := by
  obtain ⟨aligned, _, _, _, _, inside, rest⟩ := h
  have later := kind_ne_eof_of_advanced .peek (aligned_advanced aligned inside) rest more
  exact ⟨kind_ne_eof_of_advanced .peek aligned inside later, later⟩

theorem Stretch.exists_advanced (h : Stretch s ss t) (aligned : s.Aligned) : ∃ n, t.cursor = s.cursor.advanced n := by
  induction h with
  | nil s => exact ⟨0, rfl⟩
  | @cons s t u st ss _ first _ ih =>
    obtain ⟨_, moved, _, _, account⟩ := exists_account aligned first
    obtain ⟨n, rest⟩ := ih (aligned_advanced aligned account.cursor).advance
    refine ⟨moved + 1 + n, ?_⟩
    rw [rest, ← Cursor.advanced_advanced, Cursor.advanced, ← account.cursor]
    rfl

end Stretch

end Parser

end Monkey
