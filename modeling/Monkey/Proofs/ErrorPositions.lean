import Monkey.Proofs.DroppedStatements
import Monkey.Proofs.Wording

namespace Monkey

open Lexer (ofString)

namespace ParseError.About

variable {t : Token} {e : ParseError}

theorem span_eq (h : e.About t) : e.span = t.span := by
  cases h <;> rfl

theorem tells (h : e.About t) : e.Tells t := by
  cases h with
  | unexpected expected => exact .inl ⟨expected, rfl⟩
  | noExpression => exact .inr (.inl rfl)
  | tooLarge => exact .inr (.inr rfl)

end ParseError.About

namespace Cursor

/-- How many tokens the slot is ahead of the current one. -/
def Slot.ahead : Slot → Nat
  | .current => 0
  | .peek => 1

theorem advanced_ofLexer (l : Lexer) (n : Nat) : (ofLexer l).advanced n = ofLexer (l.skip n) := by
  induction n with
  | zero => rfl
  | succ n ih => rw [advanced, ih]; rfl

theorem token_ofLexer (l : Lexer) (n : Nat) (slot : Slot) :
    (ofLexer (l.skip n)).token slot = (l.skip (n + slot.ahead)).next.1 := by
  cases slot <;> rfl

end Cursor

section Tokens

variable {source : String} {i j : Nat} {t u : Token}

theorem Lexer.kind_ne_eof_of_mem {l : Lexer} : ∀ t ∈ l.tokens, t.kind ≠ .eof := by
  fun_induction tokens l with
  | case1 =>
    intro t mem
    cases mem
  | case2 l more ih => exact List.forall_mem_cons.2 ⟨more, ih⟩

/-- All tokens but the last are other than the end token. -/
theorem getElem?_lex_of_ne_eof (at_ : (lex source)[i]? = some t) (other : t.kind ≠ .eof) :
    (ofString source).tokens[i]? = some t := by
  rw [lex_eq, List.getElem?_append] at at_
  split at at_
  · exact at_
  · next beyond =>
    have last := List.mem_singleton.1 (List.mem_of_getElem? at_)
    subst last
    exact absurd rfl other

/-- Where the text is not too long for spans, a token has a span of its own. -/
theorem index_eq_of_span (short : source.utf8ByteSize < UInt32.size) (at_ : (lex source)[i]? = some t)
    (other : t.kind ≠ .eof) (at_' : (lex source)[j]? = some u) (same : u.span = t.span) : i = j := by
  have room : 0 + byteSize source.toList ≤ Span.maxOffset := by
    rw [byteSize_toList, Nat.zero_add]
    exact Nat.le_pred_of_lt short
  obtain ⟨nonempty, ordered⟩ := (ofString source).tiled.ordered room
  have here := getElem?_lex_of_ne_eof at_ other
  obtain ⟨inside, get⟩ := List.getElem?_eq_some_iff.1 here
  have some := (nonempty t (List.mem_of_getElem? here)).2
  by_cases last : u.kind = .eof
  · have point : u.span.start = u.span.stop := by
      rw [lex_eq] at at_'
      rcases List.mem_append.1 (List.mem_of_getElem? at_') with early | end_
      · exact absurd last (Lexer.kind_ne_eof_of_mem u early)
      · rw [List.mem_singleton.1 end_]
        rfl
    rw [same] at point
    omega
  · have there := getElem?_lex_of_ne_eof at_' last
    obtain ⟨inside', get'⟩ := List.getElem?_eq_some_iff.1 there
    have apart := List.pairwise_iff_getElem.1 ordered
    rcases Nat.lt_trichotomy i j with before | rfl | after
    · have order := apart i j inside inside' before
      rw [get, get', same] at order
      omega
    · rfl
    · have order := apart j i inside' inside after
      rw [get, get', same] at order
      omega

end Tokens

namespace Parser

open CallTree (Traces)

/-- The report of a mark, of the state in which the statement was given up. -/
def Mark.report (source : String) (u : State) (m : Mark) : Report where
  error := m.error
  state := u
  slot := m.slot
  index := min (m.moved + m.slot.ahead) (ofString source).tokens.length

section Reports

variable {source : String} {marks : List Mark} {states : List State}

theorem Mark.stands {m : Mark} {u : State} (on : m.On (Cursor.ofString source))
    (cursor : u.cursor = (Cursor.ofString source).advanced m.moved)
    (last : u.errors.toList.getLast? = some m.error) : (m.report source u).Stands source := by
  unfold Mark.On at on
  rw [← cursor] at on
  refine ⟨?_, on.span_eq, on.tells, last⟩
  change (lex source)[min (m.moved + m.slot.ahead) _]? = some (u.cursor.token m.slot)
  rw [cursor, Cursor.ofString, Cursor.advanced_ofLexer, Cursor.token_ofLexer, lex_eq, Lexer.next_skip]

/-- Of two errors the one that was found later is not on an earlier token. -/
theorem Mark.index_le {m m' : Mark} {u u' : State} (before : m.moved < m'.moved) :
    (m.report source u).index ≤ (m'.report source u').index := by
  have ahead : m.slot.ahead ≤ 1 := by cases m.slot <;> decide
  change min _ _ ≤ min _ _
  omega

/-- Errors on one token in one slot were found at the same point, unless that is the end token. -/
theorem Mark.moved_eq {m m' : Mark} {u u' : State} {i : Nat} (inside : i < (ofString source).tokens.length)
    (index : (m.report source u).index = i) (index' : (m'.report source u').index = i) (slot : m.slot = m'.slot) :
    m.moved = m'.moved := by
  change min (m.moved + m.slot.ahead) _ = i at index
  change min (m'.moved + m'.slot.ahead) _ = i at index'
  rw [slot] at index
  omega

end Reports

/-- The reports of an account: one for each dropped statement and its mark. -/
def reports (source : String) (states : List State) (marks : List Mark) : List Report :=
  (states.zip marks).map fun p => p.2.report source p.1

/-- Both reports are of marks, and the mark of the second was made later. -/
def Report.Before (source : String) (x y : Report) : Prop :=
  ∃ m m' : Mark, m.moved < m'.moved ∧ ∃ u u', x = m.report source u ∧ y = m'.report source u'

section Listed

variable {source : String} {states : List State} {marks : List Mark} (same : states.length = marks.length)

include same

theorem map_error_reports : (reports source states marks).map Report.error = marks.map Mark.error := by
  have seconds : (states.zip marks).map Prod.snd = marks := List.map_snd_zip (Nat.le_of_eq same.symm)
  conv_rhs => rw [← seconds]
  rw [reports, List.map_map, List.map_map]
  rfl

theorem map_state_reports : (reports source states marks).map Report.state = states := by
  have firsts : (states.zip marks).map Prod.fst = states := List.map_fst_zip (Nat.le_of_eq same)
  conv_rhs => rw [← firsts]
  rw [reports, List.map_map]
  rfl

theorem pairwise_reports (increasing : marks.Pairwise (·.moved < ·.moved)) :
    (reports source states marks).Pairwise (Report.Before source) := by
  have seconds : (states.zip marks).map Prod.snd = marks := List.map_snd_zip (Nat.le_of_eq same.symm)
  rw [← seconds] at increasing
  refine List.pairwise_map.2 ((List.pairwise_map.1 increasing).imp fun {p q} less => ?_)
  exact ⟨p.2, q.2, less, p.1, q.1, rfl, rfl⟩

end Listed

theorem Report.Before.index_le {source : String} {x y : Report} (h : x.Before source y) : x.index ≤ y.index := by
  obtain ⟨m, m', before, u, u', rfl, rfl⟩ := h
  exact Mark.index_le before

/-- At most one of the members has the property if no two do that are in the relation. -/
theorem length_filter_le_one {α : Type} {R : α → α → Prop} {p : α → Bool} {l : List α} (h : l.Pairwise R)
    (apart : ∀ x y, p x → p y → ¬ R x y) : (l.filter p).length ≤ 1 := by
  have kept := h.filter p
  have all : ∀ x ∈ l.filter p, p x := fun x mem => (List.mem_filter.1 mem).2
  match eq : l.filter p with
  | [] => exact Nat.zero_le 1
  | [_] => exact Nat.le_refl 1
  | x :: y :: _ =>
    rw [eq] at kept all
    have related := (List.pairwise_cons.1 kept).1 y (by simp)
    exact absurd related (apart x y (all x (by simp)) (all y (by simp)))

section Counts

variable {source : String} {rs : List Report} {i : Nat} (ordered : rs.Pairwise (Report.Before source))
  (inside : i < (ofString source).tokens.length)

include ordered inside

/-- A token other than the end token has at most one error that was found while it was in this slot. -/
theorem length_filter_slot_le (slot : Cursor.Slot) :
    (rs.filter fun x => x.slot = slot ∧ x.index = i).length ≤ 1 := by
  refine length_filter_le_one ordered fun x y here here' => ?_
  simp only [decide_eq_true_eq] at here here'
  rintro ⟨m, m', before, u, u', rfl, rfl⟩
  have still := Mark.moved_eq inside here.2 here'.2 (here.1.trans here'.1.symm)
  omega

/-- And so it has at most two. -/
theorem length_filter_index_le : (rs.filter fun x => x.index = i).length ≤ 2 := by
  have current := length_filter_slot_le ordered inside .current
  have peek := length_filter_slot_le ordered inside .peek
  have other (x : Report) : (!decide (x.slot = .current)) = decide (x.slot = .peek) := by cases x.slot <;> rfl
  rw [List.length_eq_length_filter_add fun x : Report => decide (x.slot = .current)]
  simp only [other, List.filter_filter, ← Bool.decide_and]
  exact Nat.add_le_add current peek

end Counts

end Parser

open Monkey.Parser CallTree in
/-- The errors of a text are reports of the statements that were dropped: each sits on a token of the text and says of
which kind that is, or how it reads. They come in the order of their tokens, and a token other than the end token has
at most two: one that was found while it was the current token, and one while it was the next. -/
theorem errors_in_source_order (source : String) :
    ∃ trace ss t, ∃ reports : List Report, Traces produce trace (statements false (State.start source)) (.ok ss) t ∧
      parse source = ⟨⟨ss⟩, t.errors.toList⟩ ∧ reports.map Report.error = (parse source).errors ∧
      reports.map Report.state = dropped trace ∧ (∀ x ∈ reports, x.Stands source) ∧
      reports.Pairwise (fun x y => x.index ≤ y.index) ∧
      ∀ i token, (lex source)[i]? = some token → token.kind ≠ .eof →
        (∀ slot, (reports.filter fun x => x.slot = slot ∧ x.index = i).length ≤ 1) ∧
        (reports.filter fun x => x.index = i).length ≤ 2 ∧
        (source.utf8ByteSize < UInt32.size →
          ((parse source).errors.filter fun e => e.span = token.span).length ≤ 2) := by
  obtain ⟨trace, ss, t, run, same⟩ := exists_traces_parse source
  have start : Tallies (statements false) (State.start source) := tallies_call nofun
  obtain ⟨moved, marks, account⟩ := tally_of_traces start (State.aligned_start source) run
  have length : (dropped trace).length = marks.length := account.drops.length_eq
  have errors : (reports source (dropped trace) marks).map Report.error = (parse source).errors := by
    rw [map_error_reports length, same]
    exact (show t.errors.toList = _ from account.errors).symm
  have ordered : (reports source (dropped trace) marks).Pairwise (Report.Before source) :=
    pairwise_reports length account.increasing
  have stand : ∀ x ∈ reports source (dropped trace) marks, x.Stands source := by
    intro x mem
    obtain ⟨⟨u, m⟩, paired, rfl⟩ := List.mem_map.1 mem
    obtain ⟨cursor, last⟩ := (List.forall₂_iff_zip.1 account.drops).2 paired
    have on := (account.inside m (List.of_mem_zip paired).2).2
    exact Mark.stands on cursor last
  refine ⟨trace, ss, t, reports source (dropped trace) marks, run, same, errors, map_state_reports length, stand,
    ordered.imp Report.Before.index_le, fun i token at_ other => ?_⟩
  obtain ⟨inside, _⟩ := List.getElem?_eq_some_iff.1 (getElem?_lex_of_ne_eof at_ other)
  have two := length_filter_index_le ordered inside
  refine ⟨length_filter_slot_le ordered inside, two, fun short => ?_⟩
  rw [← List.countP_eq_length_filter] at two ⊢
  rw [← errors, List.countP_map]
  refine Nat.le_trans (List.countP_mono_left fun x mem sits => ?_) two
  have here := stand x mem
  have span : (x.state.cursor.token x.slot).span = token.span := here.span.symm.trans (of_decide_eq_true sits)
  exact decide_eq_true (index_eq_of_span short at_ other here.token span).symm

/-- Two errors on the sign that should be a name: one when it came next and one when a statement began with it. On the
end token there are more, one for each call that is cut off. -/
theorem errors_in_source_order_twice :
    let source := "let = f(fn() \x7b f(fn() \x7b f("
    let sign : Token := ⟨.assign, "=", ⟨4, 5⟩⟩
    (lex source)[1]? = some sign ∧ sign.kind ≠ .eof ∧ source.utf8ByteSize < UInt32.size ∧
      (parse source).errors.map ParseError.span = [⟨4, 5⟩, ⟨4, 5⟩, ⟨26, 26⟩, ⟨26, 26⟩, ⟨26, 26⟩] ∧
      ((parse source).errors.filter fun e => e.span = sign.span).length ≤ 2 := by
  intro source sign
  have at_ : (lex source)[1]? = some sign := by decide +kernel
  have other : sign.kind ≠ .eof := by decide
  have short : source.utf8ByteSize < UInt32.size := by decide
  obtain ⟨_, _, _, _, _, _, _, _, _, _, counts⟩ := errors_in_source_order source
  exact ⟨at_, other, short, by decide +kernel, (counts 1 sign at_ other).2.2 short⟩

end Monkey
