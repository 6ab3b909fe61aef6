import Mathlib.Data.List.Forall2
import Monkey.Proofs.LongestMatch

namespace Monkey

open Lexer (ofString)

theorem lexemes_of_nil {cs : List Char} (h : cs.dropWhile isBlank = []) : lexemes cs = [] := by
  rw [lexemes]
  split
  · rfl
  · next eq => rw [h] at eq; cases eq

theorem lexemes_of_cons {cs rest : List Char} {c : Char} (h : cs.dropWhile isBlank = c :: rest) :
    lexemes cs = Lexeme.scan c rest :: lexemes (Lexeme.scan c rest).rest := by
  rw [lexemes]
  split
  · next eq => rw [h] at eq; cases eq
  · next c' rest' eq =>
    rw [h] at eq
    obtain ⟨rfl, rfl⟩ := List.cons.inj eq
    rfl

/-- The first character after blanks is none. -/
theorem visible_of_dropWhile {cs rest : List Char} {c : Char} (h : cs.dropWhile isBlank = c :: rest) :
    isBlank c = false := by
  have first := List.head?_dropWhile_not isBlank cs
  simpa [h] using first

/-- The tokens from here on, and the blanks around them, make up the text that is left. -/
theorem Lexer.tiled (l : Lexer) : Tiled l.offset l.rest l.tokens ((lexemes l.rest).map (·.text)) := by
  fun_induction tokens l with
  | case1 l h =>
    rw [lexemes_of_nil (next_kind_eq_eof_iff.1 h)]
    exact .nil (isBlank_of_eof h)
  | case2 l h ih =>
    cases skipped : l.rest.dropWhile isBlank with
    | nil => exact absurd (next_kind_eq_eof_iff.2 skipped) h
    | cons c cs =>
      have visible := visible_of_dropWhile skipped
      have text : l.rest = l.rest.takeWhile isBlank ++ ((Lexeme.scan c cs).text ++ (Lexeme.scan c cs).rest) := by
        rw [Lexeme.scan_text_append_rest, ← skipped, List.takeWhile_append_dropWhile]
      have start : l.skipBlanks.offset = l.offset + byteSize (l.rest.takeWhile isBlank) := by
        rw [byteSize_of_blank all_of_mem_takeWhile]
        rfl
      have others := ih
      rw [next_of_visible skipped] at others
      have tiled := Tiled.cons all_of_mem_takeWhile start (Lexeme.fits_scan visible _) rfl others
      rw [← text] at tiled
      rw [lexemes_of_cons skipped, next_of_visible skipped]
      exact tiled

theorem Span.ofRange_of_le {start stop : Nat} (order : start ≤ stop) (le : stop ≤ maxOffset) :
    ofRange start stop = ⟨start, stop⟩ := by
  rw [ofRange, Nat.min_eq_left (Nat.le_trans order le), Nat.min_eq_left le]

namespace Tiled

variable {offset : Nat} {cs : List Char} {ts : List Token} {texts : List (List Char)}

/-- Every token lies where its span says. -/
theorem stands (tiled : Tiled offset cs ts texts) (room : offset + byteSize cs ≤ Span.maxOffset) :
    List.Forall₂ (fun t text => ∃ before after, cs = before ++ (text ++ after) ∧
      t.span = ⟨offset + byteSize before, offset + byteSize before + byteSize text⟩ ∧ t.Fits text after) ts texts := by
  induction tiled with
  | nil _ => exact .nil
  | @cons offset start blanks text rest t ts texts _ from_ fits span _ ih =>
    subst from_
    simp only [byteSize_append] at room
    rw [Span.ofRange_of_le (by omega) (by omega)] at span
    refine .cons ⟨blanks, rest, rfl, span, fits⟩ ((ih (by omega)).imp ?_)
    rintro u text' ⟨before, after, rfl, span', fits'⟩
    refine ⟨blanks ++ (text ++ before), after, by simp only [List.append_assoc], ?_, fits'⟩
    simp only [span', byteSize_append, Nat.add_assoc]

/-- Every token takes some bytes, and begins where the one before it ends, or later. -/
theorem ordered (tiled : Tiled offset cs ts texts) (room : offset + byteSize cs ≤ Span.maxOffset) :
    (∀ t ∈ ts, offset ≤ t.span.start ∧ t.span.start < t.span.stop) ∧
      ts.Pairwise fun t u => t.span.stop ≤ u.span.start := by
  induction tiled with
  | nil _ => simp
  | @cons offset start blanks text rest t ts texts _ from_ fits span _ ih =>
    subst from_
    have taken : 0 < byteSize text := by
      have some := List.length_pos_iff.2 fits.nonempty
      have := length_le_byteSize text
      omega
    simp only [byteSize_append] at room
    rw [Span.ofRange_of_le (by omega) (by omega)] at span
    obtain ⟨later, others⟩ := ih (by omega)
    refine ⟨List.forall_mem_cons.2 ⟨?_, fun u mem => ?_⟩, List.pairwise_cons.2 ⟨fun u mem => ?_, others⟩⟩
    · simp only [span]
      omega
    · obtain ⟨start, some⟩ := later u mem
      omega
    · rw [span]
      exact (later u mem).1

/-- A character of two texts in a row is in the first or in the second. -/
theorem split_at {xs ys before after : List Char} {c : Char} (h : xs ++ ys = before ++ c :: after) :
    (∃ bs, xs = before ++ c :: bs) ∨ ∃ bs, before = xs ++ bs ∧ ys = bs ++ c :: after := by
  rcases List.append_eq_append_iff.1 h with ⟨bs, rfl, same⟩ | ⟨bs, rfl, same⟩
  · exact .inr ⟨bs, rfl, same⟩
  · cases bs with
    | nil => exact .inr ⟨[], by simp, by simpa using same.symm⟩
    | cons d bs =>
      obtain ⟨rfl, _⟩ := List.cons.inj same
      exact .inl ⟨bs, rfl⟩

/-- A character that lies in no token is blank. -/
theorem isBlank_of_outside (tiled : Tiled offset cs ts texts) (room : offset + byteSize cs ≤ Span.maxOffset)
    {before after : List Char} {c : Char} (here : cs = before ++ c :: after)
    (outside : ∀ t ∈ ts, offset + byteSize before < t.span.start ∨ t.span.stop ≤ offset + byteSize before) :
    isBlank c := by
  induction tiled generalizing before with
  | nil blank => exact blank c (by simp [here])
  | @cons offset start blanks text rest t ts texts blank from_ _ span _ ih =>
    subst from_
    simp only [byteSize_append] at room
    rw [Span.ofRange_of_le (by omega) (by omega)] at span
    obtain ⟨outsideFirst, outsideOthers⟩ := List.forall_mem_cons.1 outside
    rcases split_at here with ⟨bs, rfl⟩ | ⟨before, rfl, inside⟩
    · exact blank c (by simp)
    · simp only [span, byteSize_append] at outsideFirst
      rcases split_at inside with ⟨bs, rfl⟩ | ⟨before, rfl, behind⟩
      · have positive := c.utf8Size_pos
        simp only [byteSize_append, byteSize_cons] at outsideFirst
        omega
      · refine ih (by omega) behind fun u mem => ?_
        have := outsideOthers u mem
        simp only [byteSize_append] at this
        omega

end Tiled

/-- The token stands in the source for this text. The ends of its span are those of the text, so they lie between
characters. -/
def Token.StandsIn (source : String) (t : Token) (text : String) : Prop :=
  ∃ before after, source = before ++ text ++ after ∧
    t.span = ⟨before.utf8ByteSize, before.utf8ByteSize + text.utf8ByteSize⟩ ∧ t.Fits text.toList after.toList

/-- The tokens of a text that is not too long for spans lie in it one after the other, each the longest at its
place, with nothing but blanks outside of them. -/
theorem lex_tiles {source : String} (short : source.utf8ByteSize < UInt32.size) :
    ∃ tokens, lex source = tokens ++ [.eof source.utf8ByteSize] ∧
      List.Forall₂ (Token.StandsIn source) tokens (tokenTexts source) ∧
      (∀ t ∈ tokens, t.span.start < t.span.stop) ∧ tokens.Pairwise (fun t u => t.span.stop ≤ u.span.start) ∧
      ∀ (before after : String) (c : Char), source = before ++ String.singleton c ++ after →
        (∀ t ∈ tokens, before.utf8ByteSize < t.span.start ∨ t.span.stop ≤ before.utf8ByteSize) → isBlank c := by
  have tiled := (ofString source).tiled
  have room : 0 + byteSize source.toList ≤ Span.maxOffset := by
    rw [byteSize_toList, Nat.zero_add]
    exact Nat.le_pred_of_lt short
  have stands := tiled.stands room
  obtain ⟨nonempty, ordered⟩ := tiled.ordered room
  refine ⟨(ofString source).tokens, ?_, ?_, fun t mem => (nonempty t mem).2, ordered, ?_⟩
  · have last : min (0 + byteSize source.toList) Span.maxOffset = source.utf8ByteSize := by
      rw [Nat.min_eq_left room, Nat.zero_add, byteSize_toList]
    rw [lex, Lexer.collect_eq]
    exact congrArg (fun size => (ofString source).tokens ++ [Token.eof size]) last
  · have texts : tokenTexts source = ((lexemes source.toList).map (·.text)).map String.ofList := by
      rw [tokenTexts, List.map_map]
      rfl
    rw [texts, List.forall₂_map_right_iff]
    refine stands.imp ?_
    rintro t text ⟨before, after, whole, span, fits⟩
    have parts : source = String.ofList before ++ String.ofList text ++ String.ofList after := by
      rw [← String.ofList_append, ← String.ofList_append, List.append_assoc, ← whole]
      exact String.ofList_toList.symm
    refine ⟨_, _, parts, ?_, by simpa only [String.toList_ofList] using fits⟩
    rw [← byteSize_toList, ← byteSize_toList, String.toList_ofList, String.toList_ofList]
    simpa only [ofString, Nat.zero_add] using span
  · intro before after c whole outside
    have parts : source.toList = before.toList ++ c :: after.toList := by simp [whole]
    refine tiled.isBlank_of_outside room parts ?_
    simpa only [ofString, Nat.zero_add, byteSize_toList] using outside

/-- A letter of two bytes is no word, and a string is cut off by the end of the text. -/
theorem lex_tiles_cutString :
    "é = \"x ".utf8ByteSize < UInt32.size ∧
      ∃ tokens, lex "é = \"x " = tokens ++ [.eof 8] ∧
        List.Forall₂ (Token.StandsIn "é = \"x ") tokens ["é", "=", "\"x "] := by
  have short : "é = \"x ".utf8ByteSize < UInt32.size := by decide
  obtain ⟨tokens, all, stand, _⟩ := lex_tiles short
  have texts : tokenTexts "é = \"x " = ["é", "=", "\"x "] := by
    have first : lexemes "é = \"x ".toList = Lexeme.scan 'é' " = \"x ".toList :: lexemes " = \"x ".toList :=
      lexemes_of_cons (by decide)
    have second : lexemes " = \"x ".toList = Lexeme.scan '=' " \"x ".toList :: lexemes " \"x ".toList :=
      lexemes_of_cons (by decide)
    have third : lexemes " \"x ".toList = Lexeme.scan '"' "x ".toList :: lexemes [] := lexemes_of_cons (by decide)
    have last : lexemes [] = [] := lexemes_of_nil rfl
    rw [tokenTexts, first, second, third, last]
    decide
  exact ⟨short, tokens, all, texts ▸ stand⟩

end Monkey
