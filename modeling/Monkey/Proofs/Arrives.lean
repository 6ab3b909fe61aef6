import Monkey.Proofs.Lookahead
import Monkey.Proofs.NodeErasure
import Monkey.Proofs.ParserTotal

namespace Monkey

open Grammar

namespace Parser

/-- The production, started in `s`, yields a node without an error, and `post` holds in the end. -/
def Arrives {α : Type} (m : Parser α) (s : State) (post : α → State → Prop) : Prop :=
  ∃ a t, CallTree.Returns produce (m s) (.ok a) t ∧ t.Aligned ∧ t.errors = s.errors ∧ post a t

section Rules

variable {α β : Type} {s : State} {post : β → State → Prop}

theorem arrives_pure {b : β} (aligned : s.Aligned) (h : post b s) : Arrives (pure b) s post :=
  ⟨b, s, .done _ _, aligned, rfl, h⟩

theorem arrives_bind {m : Parser α} {f : α → Parser β} {mid : α → State → Prop} (h : Arrives m s mid)
    (next : ∀ a t, t.Aligned → mid a t → Arrives (f a) t post) : Arrives (m >>= f) s post := by
  obtain ⟨a, t, first, aligned, errors, holds⟩ := h
  obtain ⟨b, u, second, aligned', errors', holds'⟩ := next a t aligned holds
  exact ⟨b, u, CallTree.returns_andThen_iff.2 (.inl ⟨a, t, first, second⟩), aligned', errors'.trans errors, holds'⟩

theorem arrives_call (goal : Goal) {post : goal.Result → State → Prop} (h : Arrives (produce goal) s post) :
    Arrives (Routine.call goal) s post := by
  obtain ⟨a, t, returns, rest⟩ := h
  exact ⟨a, t, .call returns (.done _ _), rest⟩

theorem arrives_attempt {m : Parser β} (h : Arrives m s post) :
    Arrives m.attempt s fun read t => ∃ b, read = .ok b ∧ post b t := by
  obtain ⟨b, t, returns, aligned, errors, holds⟩ := h
  exact ⟨.ok b, t, CallTree.returns_observe_iff.2 ⟨_, returns, rfl⟩, aligned, errors, b, rfl, holds⟩

theorem arrives_current {f : Token → Parser β} (h : Arrives (f s.cursor.current) s post) :
    Arrives (current >>= f) s post := h

theorem arrives_peekKind {f : TokenKind → Parser β} (h : Arrives (f s.cursor.peek.kind) s post) :
    Arrives (peekKind >>= f) s post := h

theorem arrives_advance {f : Unit → Parser β} (h : Arrives (f ()) s.advance post) :
    Arrives (advance >>= f) s post := h

theorem arrives_spanFrom {start : Span} {f : Span → Parser β}
    (h : Arrives (f (start.merge s.cursor.current.span)) s post) : Arrives (spanFrom start >>= f) s post := h

theorem arrives_freshLiteral {f : Nat → Parser β} (h : Arrives (f s.literals) s.countLiteral post) :
    Arrives (freshLiteral >>= f) s post := h

theorem arrives_skipSemicolon {f : Unit → Parser β} (h : Arrives (f ()) s.skipSemicolon post) :
    Arrives (skipSemicolon >>= f) s post := by
  unfold Arrives at h ⊢
  rw [skipSemicolon_bind]
  rw [State.errors_skipSemicolon] at h
  exact h

theorem arrives_expectPeek {expected : TokenKind} {f : Unit → Parser β} (there : s.cursor.peek.kind = expected)
    (h : Arrives (f ()) s.advance post) : Arrives (expectPeek expected >>= f) s post := by
  unfold Arrives at h ⊢
  rw [Routine.bind_apply, expectPeek_of_eq there]
  exact h

end Rules

/-- Started on the first of the tokens, the production yields the node, up to spans, and leaves the rest. -/
def Takes (symbol : Symbol) (m : Parser symbol.Node) (a : symbol.Node) (ts rest : List Token) : Prop :=
  ∀ s : State, s.Aligned → s.tokens = ts →
    Arrives m s fun a' t => symbol.erase a' = symbol.erase a ∧ t.tokens.tail = rest

/-- The same, started on the token before the first. -/
def TakesNext (symbol : Symbol) (m : Parser symbol.Node) (a : symbol.Node) (ts rest : List Token) : Prop :=
  ∀ s : State, s.Aligned → s.tokens.tail = ts →
    Arrives m s fun a' t => symbol.erase a' = symbol.erase a ∧ t.tokens.tail = rest

/-- Items with commas between them, at least one. -/
inductive Row {α : Type} (accepts : α → List Token → List Token → Prop) : List α → List Token → List Token → Prop
  | one {a : α} {ts rest : List Token} : accepts a ts rest → Row accepts [a] ts rest
  | more {a : α} {as : List α} {t : Token} {ts mid rest : List Token} :
      accepts a ts (t :: mid) → t.kind = .comma → Row accepts as mid rest → Row accepts (a :: as) ts rest

/-- What the parser does with tokens that stand for the node. Of an expression it is said for the loop: from the start
of its tokens the loop comes to where they end, with the expression for its left operand, and goes on from there. -/
def Accepts : (symbol : Symbol) → symbol.Node → List Token → List Token → Prop
  | .expression q, e, ts, rest => Stops q rest → ∀ above, Suits above q → ∀ (s : State) (post : Expr → State → Prop),
    s.Aligned → s.tokens = ts →
    (∀ left t, t.Aligned → Symbol.erase .primary left = Symbol.erase .primary e → t.tokens.tail = rest →
      Arrives (produce (.continued above left)) t post) →
    Arrives (produce (.expression above)) s post
  | .primary, e, ts, rest => NoElse rest → Takes .primary operand e ts rest
  | .parameter, id, ts, rest => Takes .parameter parameter id ts rest
  | .pair, p, ts, rest => Stops .lowest rest → Takes .pair pair p ts rest
  | .items item, as, ts, rest => Row (Accepts item) as ts rest
  | .list item closing, as, ts, rest =>
    (as = [] ∧ ∃ t, ts = t :: rest ∧ t.kind = closing) ∨
      item.Begins ts ∧ ∃ t, Row (Accepts item) as ts (t :: rest) ∧ t.kind = closing
  | .statement, st, ts, rest => Settled rest → Takes .statement (produce .statement) st ts rest
  | .statements, ss, ts, rest => ∀ inBlock, Closed inBlock rest → ∀ s : State, s.Aligned → s.tokens = ts →
    Arrives (produce (.statements inBlock)) s fun ss' t =>
      Symbol.erase .statements ss' = Symbol.erase .statements ss ∧ t.tokens = rest
  | .block, b, ts, rest => Takes .block block b ts rest
  | .alternative, b, ts, rest => NoElse rest → TakesNext .alternative alternative b ts rest

end Parser

end Monkey
