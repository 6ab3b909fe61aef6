import Monkey.Proofs.Tokens
import Monkey.Proofs.Traces
import Monkey.Recovery

namespace Monkey

namespace Parser

/-- What is followed through the productions. A place is a state and whatever is kept in mind of the way to it; `onward`
goes to the next token, `numbered` gives out a number. -/
structure Conduct {Place : Type} (state : Place → State) (onward numbered : Place → Place) where
  /-- Where a goal may be called. -/
  Calls : Goal → State → Prop
  /-- What is known of a call that has come to its end. -/
  Kept : (goal : Goal) → State → Trace → Except GivenUp goal.Result → State → Prop
  Holds : Place → Prop
  /-- The calls of the trace may be made on the way from the one place to the other. -/
  Moves : Place → Trace → Place → Prop
  /-- After the calls of the trace a production that was started in the place may be given up in the state. -/
  GivesUp : Place → Trace → State → Prop

/-- There is a law for everything that productions do by themselves. -/
structure Conduct.Lawful {Place : Type} {state : Place → State} {onward numbered : Place → Place}
    (D : Conduct state onward numbered) : Prop where
  state_onward (p : Place) : state (onward p) = (state p).advance
  state_numbered (p : Place) : state (numbered p) = (state p).countLiteral
  holds_onward {p : Place} : D.Holds p → D.Holds (onward p)
  holds_numbered {p : Place} : D.Holds p → D.Holds (numbered p)
  refl (p : Place) : D.Moves p [] p
  trans {p q r : Place} {trace later : Trace} : D.Moves p trace q → D.Moves q later r → D.Moves p (trace ++ later) r
  givesUp {p q : Place} {trace later : Trace} {t : State} :
    D.Moves p trace q → D.GivesUp q later t → D.GivesUp p (trace ++ later) t
  moves_onward {p : Place} : D.Holds p → D.Moves p [] (onward p)
  moves_numbered {p : Place} : D.Holds p → D.Moves p [] (numbered p)
  fail {p : Place} {slot : Cursor.Slot} {error : ParseError} :
    D.Holds p → error.About ((state p).cursor.token slot) → D.GivesUp p [] ((state p).fail error)

/-- A conduct together with its laws. -/
structure Discipline {Place : Type} (state : Place → State) (onward numbered : Place → Place) extends
    Conduct state onward numbered where
  lawful : toConduct.Lawful

namespace Discipline

variable {Place : Type} {state : Place → State} {onward numbered : Place → Place}
  (D : Discipline state onward numbered) {α β : Type}

/-- One place is come to from the other. -/
structure Leads (p q : Place) : Prop where
  holds : D.Holds q
  moves : ∃ trace, D.Moves p trace q

/-- A value comes in a place for which it is good; whoever gives up may do so. -/
def Ends (p : Place) (good : α → Place → Prop) (trace : Trace) : Except GivenUp α → State → Prop
  | .ok a, t => ∃ q, state q = t ∧ D.Holds q ∧ D.Moves p trace q ∧ good a q
  | .error _, t => D.GivesUp p trace t

/-- Started in the place, the production keeps to the discipline and comes to a good value if to any, as long as its
calls are kept. -/
def Has (m : Parser α) (p : Place) (good : α → Place → Prop) : Prop :=
  D.Holds p → (m (state p)).Charts D.Calls D.Kept (D.Ends p good)

variable {D} {p q : Place} {good : β → Place → Prop}

theorem Ends.after {trace later : Trace} {r : Except GivenUp β} {t : State} (moves : D.Moves p trace q)
    (h : D.Ends q good later r t) : D.Ends p good (trace ++ later) r t := by
  cases r with
  | ok b =>
    obtain ⟨q', same, holds, further, made⟩ := h
    exact ⟨q', same, holds, D.lawful.trans moves further, made⟩
  | error e => exact D.lawful.givesUp moves h

theorem Ends.mono {trace : Trace} {r : Except GivenUp β} {t : State} {good' : β → Place → Prop}
    (h : D.Ends p good trace r t) (imp : ∀ b q, D.Leads p q → good b q → good' b q) : D.Ends p good' trace r t := by
  cases r with
  | ok b =>
    obtain ⟨q, same, holds, moves, made⟩ := h
    exact ⟨q, same, holds, moves, imp b q ⟨holds, trace, moves⟩ made⟩
  | error e => exact h

/-- Where nothing is kept in mind but the state, and it is the same for those who give up as for those who come to a value,
only the value has to be good besides. -/
theorem ends_iff {D : Discipline (fun s : State => s) State.advance State.countLiteral} {s t : State}
    {good : β → State → Prop} {trace : Trace} {r : Except GivenUp β} {same : Prop}
    (value : D.Holds t ∧ D.Moves s trace t ↔ same) (givenUp : D.GivesUp s trace t ↔ same) :
    D.Ends s good trace r t ↔ same ∧ ∀ b, r = .ok b → good b t := by
  cases r with
  | ok b =>
    constructor
    · rintro ⟨_, rfl, holds, moves, made⟩
      refine ⟨value.1 ⟨holds, moves⟩, fun b' eq => ?_⟩
      cases eq
      exact made
    · rintro ⟨ends, made⟩
      obtain ⟨holds, moves⟩ := value.2 ends
      exact ⟨t, rfl, holds, moves, made b rfl⟩
  | error e => exact ⟨fun ends => ⟨givenUp.1 ends, nofun⟩, fun ends => givenUp.2 ends.1⟩

namespace Has

/-- What holds in the place may be made use of. -/
theorem intro {m : Parser β} (h : D.Holds p → D.Has m p good) : D.Has m p good := fun holds => h holds holds

theorem mono {m : Parser β} {good' : β → Place → Prop} (h : D.Has m p good)
    (imp : ∀ b q, D.Leads p q → good b q → good' b q) : D.Has m p good' :=
  fun holds => (h holds).mono fun _ _ _ ends => ends.mono imp

/-- A production may be followed from a place that is come to. -/
theorem from_ {m : Parser β} (holds : D.Holds q) (moves : D.Moves p [] q) (h : D.Has m q good) :
    (m (state q)).Charts D.Calls D.Kept (D.Ends p good) :=
  (h holds).mono fun _ _ _ ends => ends.after moves

theorem pure {b : β} (h : good b p) : D.Has (Pure.pure b) p good := fun holds => ⟨p, rfl, holds, D.lawful.refl p, h⟩

theorem fail (slot : Cursor.Slot) {error : ParseError} (about : error.About ((state p).cursor.token slot)) :
    D.Has (Parser.fail error) p good :=
  fun holds => D.lawful.fail holds about

theorem bind {m : Parser α} {f : α → Parser β} {mid : α → Place → Prop} (h : D.Has m p mid)
    (next : ∀ a q, D.Leads p q → mid a q → D.Has (f a) q good) : D.Has (m >>= f) p good := by
  refine fun holds => (h holds).andThen (fun trace a t met => ?_) fun trace e t met => met
  obtain ⟨q, rfl, holds, moves, made⟩ := met
  exact (next a q ⟨holds, trace, moves⟩ made holds).mono fun later r u ends => ends.after moves

/-- A call is followed if it may be made, and if where it ends is told by what is known of it. -/
theorem call {goal : Goal} {good : goal.Result → Place → Prop} (calls : D.Holds p → D.Calls goal (state p))
    (kept : D.Holds p → ∀ inside r t, D.Kept goal (state p) inside r t →
      D.Ends p good (inside ++ [⟨goal, state p, r, t⟩]) r t) : D.Has (Routine.call goal) p good :=
  fun holds => ⟨calls holds, fun inside r t met => kept holds inside r t met⟩

/-- An attempted statement is settled with the token that is passed next, whether it was given up or not. -/
theorem attempt {f : Except GivenUp Statement → Parser β} (calls : D.Holds p → D.Calls .statement (state p))
    (kept : D.Holds p → ∀ inside read t, D.Kept .statement (state p) inside read t →
      ∃ q, state q = t.advance ∧ D.Holds q ∧ D.Moves p (inside ++ [⟨.statement, state p, read, t⟩]) q ∧
        D.Has (f read) q good) :
    D.Has (statement.attempt >>= fun read => Parser.advance >>= fun _ => f read) p good := by
  refine fun holds => ⟨calls holds, fun inside read t met => ?_⟩
  obtain ⟨q, same, holds', moves, next⟩ := kept holds inside read t met
  have rest := next holds'
  rw [same] at rest
  refine rest.mono fun later r u ends => ?_
  have whole := ends.after moves
  rwa [List.append_assoc] at whole

theorem current {f : Token → Parser β} (h : D.Has (f (state p).cursor.current) p good) :
    D.Has (Parser.current >>= f) p good := h

theorem peekKind {f : TokenKind → Parser β} (h : D.Has (f (state p).cursor.peek.kind) p good) :
    D.Has (Parser.peekKind >>= f) p good := h

theorem spanFrom {start : Span} {f : Span → Parser β}
    (h : D.Has (f (start.merge (state p).cursor.current.span)) p good) : D.Has (Parser.spanFrom start >>= f) p good := h

theorem advance {f : Unit → Parser β} (h : D.Has (f ()) (onward p) good) : D.Has (Parser.advance >>= f) p good := by
  intro holds
  have next := h.from_ (D.lawful.holds_onward holds) (D.lawful.moves_onward holds)
  rwa [D.lawful.state_onward] at next

theorem freshLiteral {f : Nat → Parser β} (h : D.Has (f (state p).literals) (numbered p) good) :
    D.Has (Parser.freshLiteral >>= f) p good := by
  intro holds
  have next := h.from_ (D.lawful.holds_numbered holds) (D.lawful.moves_numbered holds)
  rwa [D.lawful.state_numbered] at next

theorem skipSemicolon {f : Unit → Parser β}
    (h : ∀ q, q = p ∨ q = onward p → state q = (state p).skipSemicolon → D.Leads p q → D.Has (f ()) q good) :
    D.Has (Parser.skipSemicolon >>= f) p good := by
  intro holds
  rw [skipSemicolon_bind]
  unfold State.skipSemicolon at h ⊢
  split
  · next there =>
    rw [if_pos there] at h
    have moves := D.lawful.moves_onward holds
    have next := (h (onward p) (.inr rfl) (D.lawful.state_onward p) ⟨D.lawful.holds_onward holds, [], moves⟩).from_
      (D.lawful.holds_onward holds) moves
    rwa [D.lawful.state_onward] at next
  · next other =>
    rw [if_neg other] at h
    exact h p (.inl rfl) rfl ⟨holds, [], D.lawful.refl p⟩ holds

/-- Without the token that was expected, the one that came next is at fault. -/
theorem expectPeek {expected : TokenKind} {f : Unit → Parser β}
    (h : (state p).cursor.peek.kind = expected → D.Has (f ()) (onward p) good) :
    D.Has (Parser.expectPeek expected >>= f) p good := by
  by_cases there : (state p).cursor.peek.kind = expected
  · intro holds
    rw [Routine.bind_apply, expectPeek_of_eq there]
    exact advance (h there) holds
  · intro holds
    rw [Routine.bind_apply, expectPeek_of_ne there]
    have about : ParseError.About ((state p).cursor.token .peek) _ := .unexpected expected
    exact D.lawful.fail holds about

section Lists

variable {item : Parser α} {more : Parser (List α)} {mid : α → Place → Prop} {all : List α → Place → Prop}

theorem moreItems (none : (state p).cursor.peek.kind ≠ .comma → all [] p)
    (first : (state p).cursor.peek.kind = .comma → D.Has item (onward (onward p)) mid)
    (others : ∀ a q, (state p).cursor.peek.kind = .comma → D.Leads (onward (onward p)) q → mid a q →
      D.Has more q fun as => all (a :: as)) :
    D.Has (Parser.moreItems item more) p all := by
  unfold Parser.moreItems
  refine .peekKind ?_
  split
  · next comma =>
    refine .advance (.advance (.bind (first comma) fun a q leads made => ?_))
    exact .bind (others a q comma leads made) fun as r _ made => .pure made
  · next other => exact .pure (none other)

theorem bracketed {closing : TokenKind} (none : (state p).cursor.peek.kind = closing → all [] (onward p))
    (first : D.Has item (onward p) mid)
    (others : ∀ a q, D.Leads (onward p) q → mid a q →
      D.Has more q fun as r => (state r).cursor.peek.kind = closing → all (a :: as) (onward r)) :
    D.Has (Parser.bracketed closing item more) p all := by
  unfold Parser.bracketed
  refine .peekKind ?_
  split
  · next closes => exact .advance (.pure (none closes))
  · refine .advance (.bind first fun a q leads made => ?_)
    refine .bind (others a q leads made) fun as r _ made => ?_
    exact .expectPeek fun closes => .pure (made closes)

end Lists

end Has

end Discipline

end Parser

end Monkey
