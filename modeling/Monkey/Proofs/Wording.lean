import Monkey.Layout
import Monkey.Proofs.Tiling

namespace Monkey

open Lexer (ofString)

namespace Lexer

/-- The lexer `n` tokens further on. -/
def skip (l : Lexer) : Nat → Lexer
  | 0 => l
  | n + 1 => (l.skip n).next.2

theorem skip_skip (l : Lexer) (m n : Nat) : (l.skip m).skip n = l.skip (m + n) := by
  induction n with
  | zero => rfl
  | succ n ih => rw [skip, ih, ← Nat.add_assoc, skip]

theorem tokens_skip (l : Lexer) (n : Nat) : (l.skip n).tokens = l.tokens.drop n := by
  induction n with
  | zero => rfl
  | succ n ih => rw [skip, tokens_next, ih, List.tail_drop]

theorem kind_skip_ne_eof_iff {l : Lexer} {n : Nat} : (l.skip n).next.1.kind ≠ .eof ↔ n < l.tokens.length := by
  have tokens := tokens_skip l n
  constructor
  · intro here
    rw [tokens_of_ne_eof here] at tokens
    by_contra beyond
    rw [List.drop_eq_nil_of_le (Nat.le_of_not_lt beyond)] at tokens
    cases tokens
  · intro within eof
    rw [tokens_of_eof eof] at tokens
    exact absurd (List.drop_eq_nil_iff.1 tokens.symm) (Nat.not_le_of_lt within)

theorem offset_skip (l : Lexer) (n : Nat) :
    (l.skip n).offset + byteSize (l.skip n).rest = l.offset + byteSize l.rest := by
  induction n with
  | zero => rfl
  | succ n ih => rw [skip, offset_next, ih]

/-- The end token of the text. -/
def last (l : Lexer) : Token := .eof (min (l.offset + byteSize l.rest) Span.maxOffset)

theorem last_skip (l : Lexer) (n : Nat) : (l.skip n).last = l.last := by
  rw [last, offset_skip, last]

theorem next_fst (l : Lexer) : (l.tokens ++ [l.last]).head? = some l.next.1 := by
  by_cases h : l.next.1.kind = .eof
  · have all := collect_eq l #[]
    rw [collect, dif_pos h] at all
    rw [last, ← List.nil_append l.tokens, ← all]
    rfl
  · rw [tokens_of_ne_eof h]
    rfl

/-- The token that comes after `n` others is the one with this number, or the end token. -/
theorem next_skip (l : Lexer) (n : Nat) :
    (l.tokens ++ [l.last])[min n l.tokens.length]? = some (l.skip n).next.1 := by
  rw [← next_fst, tokens_skip, last_skip]
  rcases Nat.lt_or_ge n l.tokens.length with within | beyond
  · have le := Nat.le_of_lt within
    rw [Nat.min_eq_left le, ← List.drop_append_of_le_length le, List.head?_drop]
  · rw [Nat.min_eq_right beyond, List.drop_eq_nil_of_le beyond]
    simp

end Lexer

theorem lex_eq (source : String) : lex source = (ofString source).tokens ++ [(ofString source).last] := by
  rw [lex, Lexer.collect_eq]
  rfl

section SameWording

variable {source source' : String} {t t' : Token}

theorem AtSameIndex.wording_eq (h : AtSameIndex source source' t t') (same : wording source = wording source') :
    t.wording = t'.wording := by
  obtain ⟨k, left, right⟩ := h
  have at_ := congrArg (·[k]?) same
  simp only [wording, List.getElem?_map, left, right, Option.map_some] at at_
  exact Option.some.inj at_

/-- Lexers that have moved equally far through texts with the same wording give tokens with the same index. -/
theorem atSameIndex_skip (same : wording source = wording source') (n : Nat) :
    AtSameIndex source source' ((ofString source).skip n).next.1 ((ofString source').skip n).next.1 := by
  have count : (ofString source).tokens.length = (ofString source').tokens.length := by
    have all := congrArg List.length same
    simpa [wording, lex_eq] using all
  refine ⟨min n (ofString source).tokens.length, ?_, ?_⟩
  · rw [lex_eq, Lexer.next_skip]
  · rw [lex_eq, count, Lexer.next_skip]

end SameWording

section Spaced

/-- What the token will be, wherever it stands. -/
def Lexeme.wording (x : Lexeme) : TokenKind × String := (x.kind, String.ofList x.literal)

theorem Lexer.wording_tokens (l : Lexer) : l.tokens.map Token.wording = (lexemes l.rest).map Lexeme.wording := by
  fun_induction tokens l with
  | case1 l h => rw [lexemes_of_nil (next_kind_eq_eof_iff.1 h)]; rfl
  | case2 l h ih =>
    cases skipped : l.rest.dropWhile isBlank with
    | nil => exact absurd (next_kind_eq_eof_iff.2 skipped) h
    | cons c cs =>
      rw [List.map_cons, ih, next_of_visible skipped, lexemes_of_cons skipped, List.map_cons]
      rfl

theorem wording_eq_lexemes (source : String) :
    wording source = (lexemes source.toList).map Lexeme.wording ++ [(.eof, "")] := by
  rw [wording, lex_eq, List.map_append, Lexer.wording_tokens]
  rfl

namespace Lexeme

/-- Where the token is scanned again: all is the same when nothing comes after it, or a blank unless it is a string that
the text cuts off. -/
theorem Scanned.again {c : Char} {cs more : List Char} {x : Lexeme} (h : Scanned c cs x)
    (gap : more = [] ∨ x.rest ≠ [] ∧ ∃ b ∈ more.head?, isBlank b) :
    ∃ text, x.text = c :: text ∧ Scanned c (text ++ more) { x with rest := more } := by
  have blank : ∀ d ∈ more.head?, isBlank d := by
    rcases gap with rfl | ⟨_, b, next, blank⟩
    · exact nofun
    · intro d next'
      cases next.symm.trans next'
      exact blank
  have apart : Apart more := by
    intro d next
    rw [Bool.eq_false_iff]
    intro part
    have visible := Lexer.isBlank_of_isWordPart part
    rw [blank d next] at visible
    cases visible
  cases h with
  | @closed s _ plain =>
    refine ⟨s ++ ['"'], rfl, ?_⟩
    rw [List.append_assoc]
    exact .closed plain
  | unclosed plain =>
    rcases gap with rfl | ⟨some, _⟩
    · refine ⟨_, rfl, ?_⟩
      rw [List.append_nil]
      exact .unclosed plain
    · exact absurd rfl some
  | word start parts _ => exact ⟨_, rfl, .word start parts apart⟩
  | digits digit parts _ => exact ⟨_, rfl, .digits digit parts apart.isDigit_eq_false⟩
  | equal => exact ⟨_, rfl, .equal⟩
  | unequal => exact ⟨_, rfl, .unequal⟩
  | sign sign _ =>
    refine ⟨[], rfl, .sign sign fun _ next => ?_⟩
    exact absurd (blank '=' next) (by decide)
  | illegal quote start digit unsigned => exact ⟨[], rfl, .illegal quote start digit unsigned⟩

theorem Scanned.scan_eq {c : Char} {cs : List Char} {x : Lexeme} (h : Scanned c cs x) : scan c cs = x := by
  cases h with
  | closed plain => exact scan_quoted plain
  | @unclosed s plain =>
    have ends : ∀ d ∈ ([] : List Char).head?, (d != '"') = false := nofun
    obtain ⟨taken, left⟩ := span_append (all_ne_quote plain) ends
    rw [List.append_nil] at taken left
    unfold scan
    rw [if_pos (by decide), quoted, taken, left]
  | word start parts apart => exact scan_word start parts apart
  | digits digit parts stops => exact scan_digits digit parts stops
  | equal => rfl
  | unequal => rfl
  | sign sign single => exact scan_sign sign single
  | illegal quote start digit unsigned =>
    unfold scan
    rw [if_neg (by simpa using quote), if_neg start, if_neg digit]
    split
    · cases unsigned
    · cases unsigned
    · rw [unsigned, Option.getD_none]

end Lexeme

theorem lexemes_append_of_blank {blanks : List Char} (blank : ∀ c ∈ blanks, isBlank c) (cs : List Char) :
    lexemes (blanks ++ cs) = lexemes cs := by
  have skipped : (blanks ++ cs).dropWhile isBlank = cs.dropWhile isBlank := List.dropWhile_append_of_pos blank
  cases rest : cs.dropWhile isBlank with
  | nil => rw [lexemes_of_nil rest, lexemes_of_nil (skipped.trans rest)]
  | cons c cs' => rw [lexemes_of_cons rest, lexemes_of_cons (skipped.trans rest)]

/-- Where the first token is scanned again, the other tokens are those of the text after it. -/
theorem lexemes_again {cs rest more : List Char} {c : Char} (h : cs.dropWhile isBlank = c :: rest)
    (gap : more = [] ∨ (Lexeme.scan c rest).rest ≠ [] ∧ ∃ b ∈ more.head?, isBlank b) :
    lexemes ((Lexeme.scan c rest).text ++ more) = { Lexeme.scan c rest with rest := more } :: lexemes more := by
  obtain ⟨text, starts, again⟩ := (Lexeme.scanned_scan c rest).again gap
  have visible := visible_of_dropWhile h
  have skipped : ((Lexeme.scan c rest).text ++ more).dropWhile isBlank = c :: (text ++ more) := by
    rw [starts, List.cons_append, List.dropWhile_cons_of_neg (by simp [visible])]
  rw [lexemes_of_cons skipped, again.scan_eq]

theorem lexemes_of_spaced {cs : List Char} {text : String}
    (spaced : Spaced ((lexemes cs).map (String.ofList ·.text)) text) :
    (lexemes text.toList).map Lexeme.wording = (lexemes cs).map Lexeme.wording := by
  fun_induction lexemes cs generalizing text with
  | case1 cs h =>
    cases spaced
    rw [lexemes_of_nil rfl]
  | case2 cs c rest h ih =>
    rw [List.map_cons] at spaced ⊢
    generalize others : (lexemes (Lexeme.scan c rest).rest).map (String.ofList ·.text) = texts at spaced ih
    cases spaced with
    | last =>
      have none : lexemes (Lexeme.scan c rest).rest = [] := List.map_eq_nil_iff.1 others
      have alone := lexemes_again h (.inl rfl)
      rw [List.append_nil] at alone
      rw [String.toList_ofList, alone, none, lexemes_of_nil rfl]
      rfl
    | @cons _ next blanks text _ some blank spaced =>
      have more : (Lexeme.scan c rest).rest ≠ [] := by
        intro none
        rw [none, lexemes_of_nil rfl] at others
        cases others
      have gap : ∃ b ∈ (blanks.toList ++ text.toList).head?, isBlank b := by
        cases chars : blanks.toList with
        | nil => exact absurd (String.toList_eq_nil_iff.1 chars) some
        | cons b bs => exact ⟨b, rfl, blank b (by simp [chars])⟩
      have again := lexemes_again h (.inr ⟨more, gap⟩)
      rw [String.toList_append, String.toList_append, String.toList_ofList, List.append_assoc, again, List.map_cons,
        lexemes_append_of_blank blank, ih spaced]
      rfl

/-- The texts of the tokens of a source, with blanks between them, have its wording. -/
theorem wording_of_spaced {source text : String} (spaced : Spaced (tokenTexts source) text) :
    wording text = wording source := by
  rw [wording_eq_lexemes, wording_eq_lexemes, lexemes_of_spaced spaced]

end Spaced

end Monkey
