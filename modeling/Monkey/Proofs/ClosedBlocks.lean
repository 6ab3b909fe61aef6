import Monkey.Proofs.BalancedReads
import Monkey.Proofs.GrammarComplete
import Monkey.Proofs.GrammarSound
import Monkey.Proofs.LexingPieces

namespace Monkey

open Lexer (ofString)

/-- Nothing but an open string carries on over a brace. -/
theorem Lexer.endsBefore_braces {l : Lexer} (uncut : ∀ x ∈ (lexemes l.rest).getLast?, ¬ x.IsCut) (j : Nat) :
    l.EndsBefore (List.replicate j '}') := by
  intro x last
  refine .inr ⟨uncut x last, ?_⟩
  cases j with
  | zero => exact ⟨apart_nil, nofun⟩
  | succ j => exact ⟨apart_cons _ (by decide), fun same => absurd (Option.some.inj same) (by decide)⟩

/-- What the grammar reads of a text is read as well when braces follow, as many as are missing or fewer. -/
theorem Grammar.Reads.append_braces {ss : List Statement} {ts : List Token} (h : Reads .statements ss ts []) :
    0 ≤ balance ts ∧ ∀ braces : List Token, (∀ b ∈ braces, b.kind = .rbrace) → (braces.length : Int) ≤ balance ts →
      Reads .statements ss (ts ++ braces) [] := by
  obtain ⟨missing, even, concat⟩ := h.closes trivial
  have even : (0 : Int) + 0 + missing = balance ts := even
  refine ⟨by omega, fun braces kinds few => ?_⟩
  have read := concat braces kinds
  rwa [List.drop_eq_nil_of_le (by omega)] at read

/-- A text whose last token is no string does not end in an open one. -/
theorem uncut_of_kind {source : String} (other : ∀ t ∈ (lex source).dropLast.getLast?, t.kind ≠ .str) :
    ∀ x ∈ (lexemes source.toList).getLast?, ¬ x.IsCut := by
  intro x last cut
  have same := congrArg List.getLast? (ofString source).wording_tokens
  rw [← dropLast_lex, List.getLast?_map, List.getLast?_map] at same
  change _ = (lexemes source.toList).getLast?.map _ at same
  rw [Option.mem_def.1 last] at same
  obtain ⟨t, last', wording⟩ := Option.map_eq_some_iff.1 same
  have kind : t.kind = x.kind := congrArg Prod.fst wording
  exact other t last' (kind.trans cut.1)

/-- A block that the end of the text cuts off means the same as one that is closed. In a text that is read without
errors no more braces are closed than opened, unless the last token is a string that is open itself, and with some of
the missing braces behind it, or all, it stands for the same program. -/
theorem parse_append_braces {source : String} (clean : (parse source).errors = [])
    (uncut : ∀ x ∈ (lexemes source.toList).getLast?, ¬ x.IsCut) :
    let opened := (lex source).countP (·.kind = .lbrace)
    let closed := (lex source).countP (·.kind = .rbrace)
    closed ≤ opened ∧ ∀ j ≤ opened - closed,
      (parse (source ++ String.ofList (List.replicate j '}'))).errors = [] ∧
      (parse (source ++ String.ofList (List.replicate j '}'))).program.eraseSpans =
        (parse source).program.eraseSpans := by
  intro opened closed
  obtain ⟨some, append⟩ := (reads_parse clean).append_braces
  have count : balance (ofString source).tokens = (opened : Int) - closed := by
    rw [← balance_lex, balance_eq_countP]
  refine ⟨by omega, fun j few => ?_⟩
  have whole : ofString (source ++ String.ofList (List.replicate j '}')) =
      (ofString source).followedBy (List.replicate j '}') := by
    rw [ofString, String.toList_append, String.toList_ofList]
    rfl
  obtain ⟨braces, tokens, length, kinds⟩ :=
    Lexer.exists_tokens_followedBy_braces (Lexer.endsBefore_braces (l := ofString source) uncut j)
  have reads := append braces kinds (by omega)
  rw [← tokens, ← whole] at reads
  exact parse_of_reads reads

/-- The block of a function in that of a condition, which is the operand of a sign, in that of another function. -/
theorem parse_append_braces_nested :
    let source := "let f = fn(x) \x7b let g = !if (x) \x7b fn() \x7b return"
    (parse source).errors = [] ∧ (∀ x ∈ (lexemes source.toList).getLast?, ¬ x.IsCut) ∧
      (lex source).countP (·.kind = .lbrace) - (lex source).countP (·.kind = .rbrace) = 3 ∧
      (parse (source ++ "\x7d\x7d")).errors = [] ∧
      (parse (source ++ "\x7d\x7d")).program.eraseSpans = (parse source).program.eraseSpans := by
  intro source
  have clean : (parse source).errors = [] := by decide +kernel
  have last : (lex source).dropLast.getLast?.map (·.kind) = some .returnWord := by decide +kernel
  have uncut : ∀ x ∈ (lexemes source.toList).getLast?, ¬ x.IsCut := by
    refine uncut_of_kind fun t here => ?_
    rw [Option.mem_def.1 here] at last
    have kind : t.kind = .returnWord := Option.some.inj last
    rw [kind]
    decide
  have opened : (lex source).countP (·.kind = .lbrace) - (lex source).countP (·.kind = .rbrace) = 3 := by
    decide +kernel
  obtain ⟨_, append⟩ := parse_append_braces clean uncut
  exact ⟨clean, uncut, opened, append 2 (by omega)⟩

end Monkey
