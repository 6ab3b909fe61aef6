import Monkey.Proofs.Discipline
import Monkey.Proofs.ParserTotal

namespace Monkey

namespace Cursor

theorem advanced_advanced (c : Cursor) (m n : Nat) : (c.advanced m).advanced n = c.advanced (m + n) := by
  induction n with
  | zero => rfl
  | succ n ih => rw [advanced, ih, ← Nat.add_assoc, advanced]

end Cursor

namespace Parser

open CallTree (Ended)

variable {α β : Type}

/-- An error, and how far from the start of a run it was found. -/
structure Mark where
  moved : Nat
  slot : Cursor.Slot
  error : ParseError

namespace Mark

/-- The error is about the token that was in the slot. -/
def On (m : Mark) (c : Cursor) : Prop := m.error.About ((c.advanced m.moved).token m.slot)

/-- The mark of a run that was started `n` tokens later. -/
def later (n : Nat) (m : Mark) : Mark := { m with moved := n + m.moved }

@[simp] theorem moved_later (n : Nat) (m : Mark) : (m.later n).moved = n + m.moved := rfl

@[simp] theorem error_later (n : Nat) (m : Mark) : (m.later n).error = m.error := rfl

theorem on_later {n : Nat} {m : Mark} {c : Cursor} (h : m.On (c.advanced n)) : (m.later n).On c := by
  unfold On at h ⊢
  rwa [Cursor.advanced_advanced] at h

theorem map_error_later (n : Nat) (marks : List Mark) : (marks.map (later n)).map error = marks.map error := by
  rw [List.map_map]
  rfl

end Mark

theorem aligned_advanced {s t : State} {n : Nat} (h : s.Aligned) (moved : t.cursor = s.cursor.advanced n) :
    t.Aligned := by
  induction n generalizing t with
  | zero => exact h.imp fun l window => moved.trans window
  | succ n ih =>
    have before : State.Aligned { s with cursor := s.cursor.advanced n } := ih rfl
    exact before.advance.imp fun l window => moved.trans window

/-- With a value come the errors that are accounted for; whoever gives up has one more, about a token in view. -/
def Reports (c : Cursor) (before : List ParseError) : Except GivenUp α → List ParseError → Prop
  | .ok _, errors => errors = before
  | .error _, errors => ∃ slot e, e.About (c.token slot) ∧ errors = before ++ [e]

/-- The call lies on the way from `s` to `t`. -/
def Passed (s t : State) (x : Ended Goal.Result State GivenUp) : Prop :=
  x.start.Aligned ∧ ∃ before within after, x.start.cursor = s.cursor.advanced before ∧
    x.state.cursor = x.start.cursor.advanced within ∧ t.cursor = x.state.cursor.advanced after

/-- The account of a run from `s` that passed `moved` tokens: one mark for each statement dropped. -/
structure Account (s : State) (moved : Nat) (marks : List Mark) (trace : Trace) (r : Except GivenUp α)
    (t : State) : Prop where
  cursor : t.cursor = s.cursor.advanced moved
  inside : ∀ m ∈ marks, m.moved < moved ∧ m.On s.cursor
  increasing : marks.Pairwise (·.moved < ·.moved)
  drops : List.Forall₂ (fun u m => u.cursor = s.cursor.advanced m.moved ∧ u.errors.toList.getLast? = some m.error)
    (dropped trace) marks
  errors : Reports t.cursor (s.errors.toList ++ marks.map Mark.error) r t.errors.toList
  calls : ∀ x ∈ trace, Passed s t x

/-- There is an account of the run. -/
def Tally (s : State) (trace : Trace) (r : Except GivenUp α) (t : State) : Prop :=
  ∃ moved marks, Account s moved marks trace r t

theorem dropped_concat (trace : Trace) (x : Ended Goal.Result State GivenUp) :
    dropped (trace ++ [x]) = dropped trace ++ (dropped? x).toList := by
  rw [dropped, List.filterMap_append, List.filterMap_cons]
  cases dropped? x <;> rfl

theorem Passed.advanced {s t u : State} {n : Nat} {x : Ended Goal.Result State GivenUp} (h : Passed s t x)
    (moved : u.cursor = t.cursor.advanced n) : Passed s u x := by
  obtain ⟨aligned, i, j, k, before, within, after⟩ := h
  exact ⟨aligned, i, j, k + n, before, within, by rw [moved, after, Cursor.advanced_advanced]⟩

theorem Passed.started {s t u : State} {n : Nat} {x : Ended Goal.Result State GivenUp} (h : Passed t u x)
    (moved : t.cursor = s.cursor.advanced n) : Passed s u x := by
  obtain ⟨aligned, i, j, k, before, within, after⟩ := h
  exact ⟨aligned, n + i, j, k, by rw [before, moved, Cursor.advanced_advanced], within, after⟩

section Accounts

variable {s t u : State} {moved moved' : Nat} {marks marks' : List Mark} {trace trace' : Trace}
  {r : Except GivenUp β}

/-- Where nothing was dropped there is nothing to account for but the tokens passed. -/
theorem account_of_move {n : Nat} {a : α} (cursor : t.cursor = s.cursor.advanced n) (errors : t.errors = s.errors) :
    Account s n [] [] (.ok a) t where
  cursor := cursor
  inside m mem := nomatch mem
  increasing := .nil
  drops := .nil
  errors := by rw [Reports, errors, List.map_nil, List.append_nil]
  calls x mem := nomatch mem

/-- Accounts are added up. -/
theorem Account.andThen {a : α} (first : Account s moved marks trace (.ok a) t)
    (second : Account t moved' marks' trace' r u) :
    Account s (moved + moved') (marks ++ marks'.map (Mark.later moved)) (trace ++ trace') r u where
  cursor := by rw [second.cursor, first.cursor, Cursor.advanced_advanced]
  inside := by
    intro m mem
    rcases List.mem_append.1 mem with early | late
    · have ⟨before, on⟩ := first.inside m early
      exact ⟨by omega, on⟩
    · obtain ⟨m', listed, rfl⟩ := List.mem_map.1 late
      have ⟨before, on⟩ := second.inside m' listed
      rw [first.cursor] at on
      exact ⟨Nat.add_lt_add_left before moved, Mark.on_later on⟩
  increasing := by
    refine List.pairwise_append.2 ⟨first.increasing, ?_, fun m early m' late => ?_⟩
    · exact List.pairwise_map.2 (second.increasing.imp fun less => Nat.add_lt_add_left less moved)
    · obtain ⟨m', _, rfl⟩ := List.mem_map.1 late
      have before := (first.inside m early).1
      simp only [Mark.moved_later]
      omega
  drops := by
    rw [dropped, List.filterMap_append]
    refine List.rel_append first.drops (List.forall₂_map_right_iff.2 (second.drops.imp fun v m => ?_))
    rintro ⟨cursor, last⟩
    refine ⟨?_, last⟩
    rw [cursor, first.cursor, Cursor.advanced_advanced, Mark.moved_later]
  errors := by
    have errors := second.errors
    rwa [show t.errors.toList = _ from first.errors, List.append_assoc, ← Mark.map_error_later moved marks',
      ← List.map_append] at errors
  calls := by
    intro x mem
    rcases List.mem_append.1 mem with early | late
    · exact (first.calls x early).advanced second.cursor
    · exact (second.calls x late).started first.cursor

/-- With its end a call lies on the way itself. -/
theorem Account.passed (goal : Goal) {r : Except GivenUp goal.Result} (h : Account s moved marks trace r t)
    (aligned : s.Aligned) : ∀ x ∈ trace ++ [⟨goal, s, r, t⟩], Passed s t x := by
  intro x mem
  rcases List.mem_append.1 mem with early | last
  · exact h.calls x early
  · cases List.mem_singleton.1 last
    exact ⟨aligned, 0, moved, 0, rfl, h.cursor, rfl⟩

/-- A statement that is given up is settled with the token that is then passed. -/
theorem Account.settle {r : Except GivenUp Statement} (h : Account s moved marks trace r t) (aligned : s.Aligned) :
    ∃ marks', Account s (moved + 1) marks' (trace ++ [⟨.statement, s, r, t⟩]) (.ok r) t.advance := by
  have cursor : t.advance.cursor = s.cursor.advanced (moved + 1) := by
    rw [Cursor.advanced, ← h.cursor]
    rfl
  have calls : ∀ x ∈ trace ++ [⟨.statement, s, r, t⟩], Passed s t.advance x := by
    intro x mem
    have moved : t.advance.cursor = t.cursor.advanced 1 := rfl
    exact (Account.passed .statement h aligned x mem).advanced moved
  cases r with
  | ok st =>
    refine ⟨marks, cursor, fun m mem => ?_, h.increasing, ?_, h.errors, calls⟩
    · have ⟨before, on⟩ := h.inside m mem
      exact ⟨by omega, on⟩
    · rw [dropped_concat]
      simpa [dropped?] using h.drops
  | error e =>
    obtain ⟨slot, error, about, errors⟩ := h.errors
    refine ⟨marks ++ [⟨moved, slot, error⟩], cursor, fun m mem => ?_, ?_, ?_, ?_, calls⟩
    · rcases List.mem_append.1 mem with early | last
      · have ⟨before, on⟩ := h.inside m early
        exact ⟨by omega, on⟩
      · cases List.mem_singleton.1 last
        rw [h.cursor] at about
        exact ⟨Nat.lt_succ_self moved, about⟩
    · refine List.pairwise_append.2 ⟨h.increasing, List.pairwise_singleton _ _, fun m early m' last => ?_⟩
      cases List.mem_singleton.1 last
      exact (h.inside m early).1
    · rw [dropped, List.filterMap_append]
      refine List.rel_append h.drops (.cons ⟨h.cursor, ?_⟩ .nil)
      rw [errors, List.getLast?_concat]
    · rw [List.map_append, ← List.append_assoc]
      exact errors

end Accounts

/-- Whoever gives up on a token in view reports that token. -/
theorem tally_fail {s : State} {slot : Cursor.Slot} {error : ParseError} (about : error.About (s.cursor.token slot)) :
    Tally s [] (.error {} : Except GivenUp α) (s.fail error) := by
  have errors : (s.fail error).errors.toList = s.errors.toList ++ [].map Mark.error ++ [error] := by simp
  have inside : ∀ m ∈ [], m.moved < 0 ∧ Mark.On m s.cursor := fun m mem => nomatch mem
  exact ⟨0, [], rfl, inside, .nil, .nil, ⟨slot, error, about, errors⟩, fun x mem => nomatch mem⟩

theorem Tally.aligned {s t : State} {trace : Trace} {r : Except GivenUp α} (h : Tally s trace r t)
    (aligned : s.Aligned) : t.Aligned := by
  obtain ⟨_, _, account⟩ := h
  exact aligned_advanced aligned account.cursor

/-- The account is the same whatever the value. -/
theorem Tally.withValue {s t : State} {trace : Trace} {a : α} (h : Tally s trace (.ok a) t) (b : β) :
    Tally s trace (.ok b) t := by
  obtain ⟨moved, marks, account⟩ := h
  obtain ⟨cursor, inside, increasing, drops, errors, calls⟩ := account
  exact ⟨moved, marks, cursor, inside, increasing, drops, errors, calls⟩

theorem Tally.givenUp {s t : State} {trace : Trace} {e : GivenUp} (h : Tally s trace (.error e : Except GivenUp α) t)
    (e' : GivenUp) : Tally s trace (.error e' : Except GivenUp β) t := by
  obtain ⟨moved, marks, account⟩ := h
  obtain ⟨cursor, inside, increasing, drops, errors, calls⟩ := account
  exact ⟨moved, marks, cursor, inside, increasing, drops, errors, calls⟩

/-- Accounts are added up. -/
theorem Tally.andThen {s t u : State} {trace later : Trace} {a : α} {r : Except GivenUp β}
    (first : Tally s trace (.ok a) t) (second : Tally t later r u) : Tally s (trace ++ later) r u := by
  obtain ⟨_, _, account⟩ := first
  obtain ⟨_, _, account'⟩ := second
  exact ⟨_, _, account.andThen account'⟩

/-- All that happens is accounted for. -/
def bookkeeping : Discipline (fun s : State => s) State.advance State.countLiteral where
  Calls _ s := s.Aligned
  Kept _ s trace r t := Tally s trace r t
  Holds := State.Aligned
  Moves s trace t := Tally s trace (.ok () : Except GivenUp Unit) t
  GivesUp s trace t := Tally s trace (.error {} : Except GivenUp Unit) t
  lawful.state_onward _ := rfl
  lawful.state_numbered _ := rfl
  lawful.holds_onward := State.Aligned.advance
  lawful.holds_numbered := State.Aligned.countLiteral
  lawful.refl _ := ⟨0, [], account_of_move rfl rfl⟩
  lawful.trans := Tally.andThen
  lawful.givesUp := Tally.andThen
  lawful.moves_onward _ := ⟨1, [], account_of_move rfl rfl⟩
  lawful.moves_numbered _ := ⟨0, [], account_of_move rfl rfl⟩
  lawful.fail _ := tally_fail

/-- There is an account of the production started in `s`, if there is one of every call. -/
abbrev Tallies (m : Parser α) (s : State) : Prop := bookkeeping.Has m s fun _ _ => True

section Productions

variable {s : State}

theorem ends_iff_tally (aligned : s.Aligned) {trace : Trace} {r : Except GivenUp α} {t : State} :
    bookkeeping.Ends s (fun _ _ => True) trace r t ↔ Tally s trace r t := by
  cases r with
  | ok a =>
    constructor
    · rintro ⟨_, rfl, _, tally, _⟩
      exact tally.withValue a
    · exact fun tally => ⟨t, rfl, tally.aligned aligned, tally.withValue (), trivial⟩
  | error e => exact ⟨fun tally => tally.givenUp e, fun tally => tally.givenUp {}⟩

/-- Calls other than those for statements drop nothing themselves. -/
theorem tallies_call {goal : Goal} (other : goal ≠ .statement) : Tallies (Routine.call goal) s := by
  refine .call (fun aligned => aligned) fun aligned inside r t met => (ends_iff_tally aligned).2 ?_
  obtain ⟨moved, marks, account⟩ := met
  have same : dropped (inside ++ [⟨goal, s, r, t⟩]) = dropped inside := by
    cases goal with
    | statement => exact absurd rfl other
    | _ => simp [dropped, dropped?]
  exact ⟨moved, marks, { account with drops := same ▸ account.drops, calls := account.passed goal aligned }⟩

/-- An attempted statement may be dropped. It is settled with the token that is passed next. -/
theorem tallies_attempt {f : Except GivenUp Statement → Parser α} (h : ∀ read t, Tallies (f read) t) :
    Tallies (statement.attempt >>= fun read => advance >>= fun _ => f read) s := by
  refine .attempt (fun aligned => aligned) fun aligned inside read t met => ?_
  obtain ⟨moved, marks, account⟩ := met
  obtain ⟨marks', settled⟩ := account.settle aligned
  have tally : Tally s _ (.ok read) t.advance := ⟨moved + 1, marks', settled⟩
  exact ⟨t.advance, rfl, tally.aligned aligned, tally.withValue (), h read t.advance⟩

theorem tallies_expression : Tallies expression s := tallies_call nofun

theorem tallies_moreItems {item : Parser α} {more : Parser (List α)} (items : ∀ t, Tallies item t)
    (others : ∀ t, Tallies more t) : Tallies (moreItems item more) s :=
  .moreItems (fun _ => trivial) (fun _ => items _) fun _ t _ _ _ => others t

theorem tallies_bracketed {closing : TokenKind} {item : Parser α} {more : Parser (List α)}
    (items : ∀ t, Tallies item t) (others : ∀ t, Tallies more t) : Tallies (bracketed closing item more) s :=
  .bracketed (fun _ => trivial) (items _) fun _ t _ _ => (others t).mono fun _ _ _ _ _ => trivial

theorem tallies_parameter : Tallies parameter s := by
  unfold parameter
  refine .current ?_
  split
  · exact .pure trivial
  · exact .fail .current (.unexpected .ident)

theorem tallies_pair : Tallies pair s := by
  unfold pair
  refine .bind tallies_expression fun _ _ _ _ => .expectPeek fun _ => .advance ?_
  exact .bind tallies_expression fun _ _ _ _ => .pure trivial

theorem tallies_block : Tallies block s := by
  unfold block
  refine .current (.advance (.bind (tallies_call nofun) fun _ _ _ _ => ?_))
  exact .spanFrom (.pure trivial)

theorem tallies_alternative : Tallies alternative s := by
  unfold alternative
  refine .peekKind ?_
  split
  · refine .advance (.expectPeek fun _ => ?_)
    exact .bind tallies_block fun _ _ _ _ => .pure trivial
  · exact .pure trivial

theorem tallies_integer : Tallies integer s := by
  unfold integer
  refine .current ?_
  dsimp only
  split
  · exact .pure trivial
  · exact .fail .current .tooLarge

theorem tallies_unary {op : UnaryOp} : Tallies (unary op) s := by
  unfold unary
  refine .current (.advance (.bind (tallies_call nofun) fun _ _ _ _ => ?_))
  exact .spanFrom (.pure trivial)

theorem tallies_grouped : Tallies grouped s := by
  unfold grouped
  refine .advance (.bind tallies_expression fun _ _ _ _ => ?_)
  exact .expectPeek fun _ => .pure trivial

theorem tallies_conditional : Tallies conditional s := by
  unfold conditional
  refine .current (.expectPeek fun _ => .advance (.bind tallies_expression fun _ _ _ _ => ?_))
  refine .expectPeek fun _ => .expectPeek fun _ => .bind tallies_block fun _ _ _ _ => ?_
  exact .bind tallies_alternative fun _ _ _ _ => .spanFrom (.pure trivial)

theorem tallies_parameters : Tallies (bracketed .rparen parameter moreParameters) s :=
  tallies_bracketed (fun _ => tallies_parameter) fun _ => tallies_call nofun

theorem tallies_function : Tallies function s := by
  unfold function
  refine .current (.expectPeek fun _ => .bind tallies_parameters fun _ _ _ _ => ?_)
  refine .expectPeek fun _ => .bind tallies_block fun _ _ _ _ => .spanFrom ?_
  exact .freshLiteral (.pure trivial)

theorem tallies_expressionList {closing : TokenKind} : Tallies (expressionList closing) s :=
  tallies_bracketed (fun _ => tallies_expression) fun _ => tallies_call nofun

theorem tallies_array : Tallies array s := by
  unfold array
  exact .current (.bind tallies_expressionList fun _ _ _ _ => .spanFrom (.pure trivial))

theorem tallies_pairs : Tallies (bracketed .rbrace pair morePairs) s :=
  tallies_bracketed (fun _ => tallies_pair) fun _ => tallies_call nofun

theorem tallies_hash : Tallies hash s := by
  unfold hash
  exact .current (.bind tallies_pairs fun _ _ _ _ => .spanFrom (.pure trivial))

theorem tallies_operand : Tallies operand s := by
  unfold operand
  refine .current ?_
  split
  · exact .pure trivial
  · exact tallies_integer
  · exact .pure trivial
  · exact .pure trivial
  · exact .pure trivial
  · exact tallies_unary
  · exact tallies_unary
  · exact tallies_grouped
  · exact tallies_conditional
  · exact tallies_function
  · exact tallies_array
  · exact tallies_hash
  · exact .fail .current .noExpression

theorem tallies_extend {left : Expr} {c : Continuation} : Tallies (extend left c) s := by
  unfold extend
  cases c with
  | binary op => exact .advance (.bind (tallies_call nofun) fun _ _ _ _ => .pure trivial)
  | call => exact .bind tallies_expressionList fun _ _ _ _ => .spanFrom (.pure trivial)
  | index =>
    refine .advance (.bind tallies_expression fun _ _ _ _ => .expectPeek fun _ => ?_)
    exact .spanFrom (.pure trivial)

theorem tallies_letStatement : Tallies letStatement s := by
  unfold letStatement
  refine .current (.expectPeek fun _ => .current (.expectPeek fun _ => .advance ?_))
  refine .bind tallies_expression fun _ _ _ _ => .skipSemicolon fun _ _ _ _ => ?_
  exact .spanFrom (.pure trivial)

theorem tallies_returnValue : Tallies returnValue s := by
  unfold returnValue
  refine .peekKind ?_
  split
  · exact .pure trivial
  · exact .pure trivial
  · exact .pure trivial
  · exact .advance (.bind tallies_expression fun _ _ _ _ => .pure trivial)

theorem tallies_returnStatement : Tallies returnStatement s := by
  unfold returnStatement
  refine .current (.bind tallies_returnValue fun _ _ _ _ => .skipSemicolon fun _ _ _ _ => ?_)
  exact .spanFrom (.pure trivial)

theorem tallies_statement : Tallies (produce .statement) s := by
  unfold produce
  refine .current ?_
  split
  · exact tallies_letStatement
  · exact tallies_returnStatement
  · exact .bind tallies_expression fun _ _ _ _ => .skipSemicolon fun _ _ _ _ => .pure trivial

/-- Here statements are dropped, and nowhere else. -/
theorem tallies_statements {inBlock : Bool} : Tallies (produce (.statements inBlock)) s := by
  unfold produce
  refine .current ?_
  dsimp only
  split
  · exact .pure trivial
  · refine tallies_attempt fun read t => .bind (tallies_call nofun) fun _ _ _ _ => ?_
    cases read <;> exact .pure trivial

theorem tallies_continued {above : Precedence} {left : Expr} : Tallies (produce (.continued above left)) s := by
  unfold produce
  refine .peekKind ?_
  split
  · split
    · exact .advance (.bind tallies_extend fun _ _ _ _ => tallies_call nofun)
    · exact .pure trivial
  · exact .pure trivial

theorem produce_tallies (goal : Goal) (s : State) : Tallies (produce goal) s := by
  cases goal with
  | statement => exact tallies_statement
  | statements inBlock => exact tallies_statements
  | expression above => exact .bind tallies_operand fun _ _ _ _ => tallies_call nofun
  | continued above left => exact tallies_continued
  | moreExpressions => exact tallies_moreItems (fun _ => tallies_expression) fun _ => tallies_call nofun
  | morePairs => exact tallies_moreItems (fun _ => tallies_pair) fun _ => tallies_call nofun
  | moreParameters => exact tallies_moreItems (fun _ => tallies_parameter) fun _ => tallies_call nofun

/-- Every goal is accounted for. -/
theorem keeps_bookkeeping (goal : Goal) (s : State) (aligned : s.Aligned) :
    (produce goal s).Charts bookkeeping.Calls bookkeeping.Kept (bookkeeping.Kept goal s) :=
  (produce_tallies goal s aligned).mono fun _ _ _ ends => (ends_iff_tally aligned).1 ends

end Productions

end Parser

end Monkey
