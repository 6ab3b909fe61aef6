import Monkey.Proofs.Wording
import Monkey.Related

namespace Monkey

open Lexer (ofString)

/-- Behind a token the lexer stands where it ends. -/
theorem Lexer.next_offsets {l : Lexer} (room : l.offset + byteSize l.rest ≤ Span.maxOffset) :
    l.offset ≤ l.next.1.span.start ∧ l.next.1.span.start ≤ l.next.1.span.stop ∧
      l.next.1.span.stop = l.next.2.offset ∧ (l.next.1.kind ≠ .eof → l.next.1.span.start < l.next.1.span.stop) := by
  have whole := offset_next l
  have blanks : l.offset ≤ l.skipBlanks.offset := Nat.le_add_right _ _
  cases skipped : l.rest.dropWhile isBlank with
  | nil =>
    obtain ⟨_, stay⟩ := next_of_eof (next_kind_eq_eof_iff.2 skipped)
    rw [stay] at whole ⊢
    have held : min l.skipBlanks.offset Span.maxOffset = l.skipBlanks.offset := by
      dsimp only at whole
      omega
    rw [held]
    exact ⟨blanks, Nat.le_refl _, rfl, fun other => absurd rfl other⟩
  | cons c cs =>
    rw [next_of_visible skipped] at whole ⊢
    have some : 0 < (Lexeme.scan c cs).byteLength := by
      have nonempty : (Lexeme.scan c cs).text ≠ [] :=
        (Lexeme.fits_scan (visible_of_dropWhile skipped) .origin).nonempty
      exact Nat.lt_of_lt_of_le (List.length_pos_iff.2 nonempty) (length_le_byteSize _)
    dsimp only at whole ⊢
    rw [Span.ofRange_of_le (Nat.le_add_right _ _) (by omega)]
    dsimp only
    omega

/-- The token with the index; behind the last one comes the end token, over and over. -/
def tokenAt (source : String) (i : Nat) : Token := ((ofString source).skip i).next.1

section Order

variable {source : String} {i j : Nat}

theorem tokenAt_mem (real : (tokenAt source i).kind ≠ .eof) : tokenAt source i ∈ (lex source).dropLast := by
  have within := Lexer.kind_skip_ne_eof_iff.1 real
  have there := Lexer.next_skip (ofString source) i
  rw [Nat.min_eq_left (Nat.le_of_lt within), List.getElem?_append_left within] at there
  rw [dropLast_lex]
  exact List.mem_of_getElem? there

variable (short : source.utf8ByteSize < UInt32.size)

include short

theorem skip_room (i : Nat) :
    ((ofString source).skip i).offset + byteSize ((ofString source).skip i).rest ≤ Span.maxOffset := by
  rw [Lexer.offset_skip]
  change 0 + byteSize source.toList ≤ _
  rw [byteSize_toList, Nat.zero_add]
  exact Nat.le_pred_of_lt short

theorem span_of_eof (eof : (tokenAt source i).kind = .eof) :
    (tokenAt source i).span = .point source.utf8ByteSize := by
  have beyond := Nat.le_of_not_lt fun within => Lexer.kind_skip_ne_eof_iff.2 within eof
  have there := Lexer.next_skip (ofString source) i
  rw [Nat.min_eq_right beyond, List.getElem?_concat_length] at there
  have last : (ofString source).last = tokenAt source i := Option.some.inj there
  have size : min (0 + byteSize source.toList) Span.maxOffset = source.utf8ByteSize := by
    rw [byteSize_toList, Nat.zero_add]
    exact Nat.min_eq_left (Nat.le_pred_of_lt short)
  rw [← last]
  exact congrArg Span.point size

theorem start_le_stop (i : Nat) : (tokenAt source i).span.start ≤ (tokenAt source i).span.stop :=
  (Lexer.next_offsets (skip_room short i)).2.1

theorem start_lt_stop (real : (tokenAt source i).kind ≠ .eof) :
    (tokenAt source i).span.start < (tokenAt source i).span.stop :=
  (Lexer.next_offsets (skip_room short i)).2.2.2 real

theorem stop_le_start (before : i < j) : (tokenAt source i).span.stop ≤ (tokenAt source j).span.start := by
  induction before with
  | refl =>
    have behind := (Lexer.next_offsets (skip_room short i)).2.2.1
    exact Nat.le_trans (Nat.le_of_eq behind) (Lexer.next_offsets (skip_room short (i + 1))).1
  | @step j _ ih =>
    obtain ⟨_, order, behind, _⟩ := Lexer.next_offsets (skip_room short j)
    exact Nat.le_trans ih (Nat.le_trans order
      (Nat.le_trans (Nat.le_of_eq behind) (Lexer.next_offsets (skip_room short (j + 1))).1))

theorem start_mono (le : i ≤ j) : (tokenAt source i).span.start ≤ (tokenAt source j).span.start := by
  rcases Nat.eq_or_lt_of_le le with rfl | before
  · exact Nat.le_refl _
  · exact Nat.le_trans (start_le_stop short i) (stop_le_start short before)

theorem stop_mono (le : i ≤ j) : (tokenAt source i).span.stop ≤ (tokenAt source j).span.stop := by
  rcases Nat.eq_or_lt_of_le le with rfl | before
  · exact Nat.le_refl _
  · exact Nat.le_trans (stop_le_start short before) (start_le_stop short j)

/-- What starts and stops later only adds to the end. -/
theorem merge_of_le {i' j' : Nat} (le : i ≤ i') (le' : j ≤ j') :
    (⟨(tokenAt source i).span.start, (tokenAt source j).span.stop⟩ : Span).merge
        ⟨(tokenAt source i').span.start, (tokenAt source j').span.stop⟩ =
      ⟨(tokenAt source i).span.start, (tokenAt source j').span.stop⟩ := by
  simp only [Span.merge, Nat.min_eq_left (start_mono short le), Nat.max_eq_right (stop_mono short le')]

/-- Every token starts between two characters of the text, and the end token behind the last of them. -/
theorem exists_boundary (i : Nat) :
    ∃ before after : String, source = before ++ after ∧ (tokenAt source i).span.start = before.utf8ByteSize := by
  by_cases eof : (tokenAt source i).kind = .eof
  · exact ⟨source, "", String.append_empty.symm, congrArg Span.start (span_of_eof short eof)⟩
  · have mem := tokenAt_mem eof
    rw [dropLast_lex] at mem
    have stands := (ofString source).tiled.stands (skip_room short 0)
    obtain ⟨text, _, before, after, parts, span, _⟩ := exists_related stands mem
    refine ⟨String.ofList before, String.ofList (text ++ after), ?_, ?_⟩
    · rw [← String.ofList_append, ← parts]
      exact String.ofList_toList.symm
    · rw [span, ← byteSize_toList, String.toList_ofList]
      exact Nat.zero_add _

end Order

end Monkey
