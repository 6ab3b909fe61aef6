import Monkey.Proofs.NestedSpans
import Monkey.Proofs.Stretches

namespace Monkey

open Lexer (ofString)

namespace CallTree

variable {Goal : Type} {Result : Goal → Type} {State Stop : Type}
  {body : (goal : Goal) → Routine Result State Stop (Result goal)}

/-- Calls that are open at one time, outermost first: one is made while the tree is followed, the next one while that
call is followed, and so on. Calls in between may be left out. -/
inductive Nest (body : (goal : Goal) → Routine Result State Stop (Result goal)) :
    {α : Type} → CallTree Result State Stop α → List (Goal × State) → Prop
  | nil {α : Type} (tree : CallTree Result State Stop α) : Nest body tree []
  | cons {α : Type} {tree : CallTree Result State Stop α} {goal : Goal} {s : State} {inner : List (Goal × State)} :
      Visits body tree goal s → Nest body (body goal s) inner → Nest body tree ((goal, s) :: inner)

/-- The calls within a call are open while the tree is followed, also without that call. -/
theorem Nest.of_visits {α : Type} {tree : CallTree Result State Stop α} {goal : Goal} {s : State}
    {calls : List (Goal × State)} (outer : Visits body tree goal s) (nest : Nest body (body goal s) calls) :
    Nest body tree calls := by
  cases nest with
  | nil => exact .nil tree
  | cons inner deeper => exact .cons (outer.trans inner) deeper

theorem Nest.filter {α : Type} {tree : CallTree Result State Stop α} {calls : List (Goal × State)}
    (p : Goal × State → Bool) (nest : Nest body tree calls) : Nest body tree (calls.filter p) := by
  induction nest with
  | nil tree => exact .nil tree
  | @cons α tree goal s inner visits _ ih =>
    rw [List.filter_cons]
    split
    · exact .cons visits ih
    · exact ih.of_visits visits

end CallTree

/-- At the end of the text the cursor stays the same. -/
theorem Cursor.ofLexer_skip_of_le {l : Lexer} {n : Nat} (le : l.tokens.length ≤ n) :
    ofLexer (l.skip n) = ofLexer (l.skip l.tokens.length) := by
  induction le with
  | refl => rfl
  | @step n le ih =>
    have eof : (l.skip n).next.1.kind = .eof := by
      by_contra more
      exact absurd (Lexer.kind_skip_ne_eof_iff.1 more) (Nat.not_lt_of_le le)
    have stays : ofLexer (l.skip n).next.2 = ofLexer (l.skip n) := by
      simp only [ofLexer, Lexer.next_next_of_eof eof]
    rw [Lexer.skip, stays, ih]

namespace Parser

open CallTree (Returns Traces Visits Nest)

def Goal.isExpression : Goal → Bool
  | .expression _ => true
  | _ => false

/-- The current token is the one of `lex source` with the index. -/
structure State.OnToken (source : String) (i : Nat) (s : State) : Prop where
  place : s.At source i
  token : (lex source)[i]? = some s.cursor.current

/-- What a round of the loop of statements comes to, when it starts on the token with the index. -/
inductive Round (source : String) (inBlock : Bool) (i : Nat) (s : State) : Prop
  /-- The loop is left. -/
  | leaves : s.cursor.current.kind = .eof ∨ inBlock ∧ s.cursor.current.kind = .rbrace →
      produce (.statements inBlock) s = .done (.ok []) s → Round source inBlock i s
  /-- A statement is read or dropped, and the loop goes on with the token behind it, which is a later one. -/
  | goesOn {read : Except GivenUp Statement} {u : State} {j : Nat} :
      Returns produce (produce .statement s) read u → u.advance.OnToken source j → i < j →
      (∀ ss t, Returns produce (produce (.statements inBlock) s) (.ok ss) t ↔
        ∃ rest, Returns produce (produce (.statements inBlock) u.advance) (.ok rest) t ∧ ss = prepend read rest) →
      Round source inBlock i s

section Places

variable {source : String} {i j n : Nat} {s t : State}

namespace State

/-- Behind the end of the text the current token is the last one. -/
theorem At.onToken (here : s.At source i) : s.OnToken source (min i (ofString source).tokens.length) where
  place := by
    rcases Nat.le_total i (ofString source).tokens.length with within | beyond
    · rwa [Nat.min_eq_left within]
    · rw [Nat.min_eq_right beyond, At, ← Cursor.ofLexer_skip_of_le beyond]
      exact here
  token := by
    rw [lex_eq, Lexer.next_skip, here.current]
    rfl

namespace OnToken

theorem aligned (here : s.OnToken source i) : s.Aligned := ⟨_, here.place⟩

theorem le_length_tokens (here : s.OnToken source i) : i ≤ (ofString source).tokens.length := by
  obtain ⟨within, _⟩ := List.getElem?_eq_some_iff.1 here.token
  rw [lex_eq, List.length_append, List.length_singleton] at within
  exact Nat.le_of_lt_succ within

/-- The tokens that are passed and those that are left, with the end token, make up the whole text. -/
theorem length_tokens (here : s.OnToken source i) : i + s.tokens.length + 1 = (lex source).length := by
  have within := here.le_length_tokens
  rw [tokens_ofLexer here.place, Lexer.tokens_skip, List.length_drop, lex_eq, List.length_append,
    List.length_singleton]
  omega

theorem advanced (here : s.OnToken source i) (moved : t.cursor = s.cursor.advanced n) :
    ∃ j, t.OnToken source j ∧ i ≤ j := by
  have there : t.At source (i + n) := by
    rw [At, moved, here.place, Cursor.advanced_ofLexer, Lexer.skip_skip]
  exact ⟨_, there.onToken, Nat.le_min.2 ⟨Nat.le_add_right i n, here.le_length_tokens⟩⟩

/-- With fewer tokens left the current one is a later one. -/
theorem lt_of_length_lt (here : s.OnToken source i) (there : t.OnToken source j)
    (fewer : t.tokens.length < s.tokens.length) : i < j := by
  have whole := here.length_tokens
  have whole' := there.length_tokens
  omega

end OnToken

theorem onToken_start (source : String) : (start source).OnToken source 0 := by
  have here : (start source).At source 0 := rfl
  have first := here.onToken
  rwa [Nat.zero_min] at first

end State

end Places

section Calls

variable {α : Type} {source : String} {i : Nat} {s t : State} {goal : Goal}

theorem Production.exists_account {m : Parser α} (production : Production m) (aligned : s.Aligned) :
    ∃ trace r t moved marks, Traces produce trace (m s) r t ∧ Account s moved marks trace r t := by
  obtain ⟨trace, r, t, run⟩ := (reportsDrops_of_tallies (production.tallies s) aligned).ends
  obtain ⟨moved, marks, account⟩ := tally_of_traces (production.tallies s) aligned run
  exact ⟨trace, r, t, moved, marks, run, account⟩

/-- Every production ends, on a token that is not before the one on which it was started. -/
theorem Production.exists_returns {m : Parser α} (production : Production m) (here : s.OnToken source i) :
    ∃ r t j, Returns produce (m s) r t ∧ t.OnToken source j ∧ i ≤ j := by
  obtain ⟨_, r, t, _, _, run, account⟩ := production.exists_account here.aligned
  obtain ⟨j, there, le⟩ := here.advanced account.cursor
  exact ⟨r, t, j, run.returns, there, le⟩

/-- What a production calls, at whatever depth, is not called on a token before it. -/
theorem Production.exists_onToken {m : Parser α} (production : Production m) (here : s.OnToken source i)
    (visits : Visits produce (m s) goal t) : ∃ j, t.OnToken source j ∧ i ≤ j := by
  obtain ⟨_, _, _, _, _, run, account⟩ := production.exists_account here.aligned
  obtain ⟨_, _, mem⟩ := run.exists_ended visits
  obtain ⟨_, _, _, _, before, _⟩ := account.calls _ mem
  exact here.advanced before

/-- An expression within an expression starts on a later token. -/
theorem exists_later_onToken {above above' : Precedence} (here : s.OnToken source i)
    (visits : Visits produce (produce (.expression above) s) (.expression above') t) :
    ∃ j, t.OnToken source j ∧ i < j := by
  have lighter : 4 * t.tokens.length + 1 < 4 * s.tokens.length + 1 :=
    visits.measure_lt keeps_thrift here.aligned
  obtain ⟨j, there, _⟩ := (Production.goal (.expression above)).exists_onToken here visits
  exact ⟨j, there, here.lt_of_length_lt there (by omega)⟩

/-- Expressions that are open at one time each start on a token of their own. -/
theorem length_nest {tree : CallTree Goal.Result State GivenUp α} {calls : List (Goal × State)} {first : Nat}
    (within : first ≤ (lex source).length)
    (starts : ∀ above t, Visits produce tree (.expression above) t → ∃ j, t.OnToken source j ∧ first ≤ j)
    (all : ∀ c ∈ calls, c.1.isExpression) (nest : Nest produce tree calls) :
    first + calls.length ≤ (lex source).length := by
  induction nest generalizing first with
  | nil => exact within
  | @cons _ _ goal t inner visits _ ih =>
    obtain ⟨expression, others⟩ := List.forall_mem_cons.1 all
    cases goal with
    | expression above =>
      obtain ⟨j, there, le⟩ := starts above t visits
      have whole := there.length_tokens
      have rest : j + 1 + inner.length ≤ (lex source).length :=
        ih (by omega) (fun _ _ deeper => exists_later_onToken there deeper) others
      rw [List.length_cons]
      omega
    | _ => cases expression

/-- No more expressions are open at one time than tokens are left. -/
theorem Production.countP_nest {m : Parser α} {calls : List (Goal × State)} (production : Production m)
    (here : s.OnToken source i) (nest : Nest produce (m s) calls) :
    i + calls.countP (·.1.isExpression) ≤ (lex source).length := by
  have whole := here.length_tokens
  rw [List.countP_eq_length_filter]
  refine length_nest (by omega) (fun _ _ visits => production.exists_onToken here visits) ?_ (nest.filter _)
  exact fun c mem => (List.mem_filter.1 mem).2

end Calls

section Rounds

variable {source : String} {inBlock : Bool} {i : Nat} {s t : State} {ss : List Statement}

theorem State.OnToken.round (here : s.OnToken source i) (inBlock : Bool) : Round source inBlock i s := by
  by_cases closed : s.cursor.current.kind = .eof ∨ inBlock ∧ s.cursor.current.kind = .rbrace
  · exact .leaves closed (produce_statements_of_closed closed)
  · obtain ⟨read, u, returns⟩ := exists_returns_produce .statement here.aligned
    obtain ⟨_, moved, _, _, account⟩ := exists_account here.aligned returns
    have behind : u.advance.cursor = s.cursor.advanced (moved + 1) := by
      rw [Cursor.advanced, ← account.cursor]
      rfl
    obtain ⟨j, there, _⟩ := here.advanced behind
    have fewer := State.length_tokens_advance_lt here.aligned account.cursor fun eof => closed (.inl eof)
    refine .goesOn returns there (here.lt_of_length_lt there fewer) fun ss t => ?_
    rw [returns_statements_iff closed]
    constructor
    · rintro ⟨read', u', rest, first, others, same⟩
      obtain ⟨rfl, rfl⟩ := first.unique returns
      exact ⟨rest, others, same⟩
    · rintro ⟨rest, others, same⟩
      exact ⟨read, u, rest, returns, others, same⟩

/-- The loop of statements is left where it has to be. -/
theorem closed_of_returns (here : s.OnToken source i)
    (h : Returns produce (produce (.statements inBlock) s) (.ok ss) t) :
    t.cursor.current.kind = .eof ∨ inBlock ∧ t.cursor.current.kind = .rbrace := by
  induction left : (lex source).length - i using Nat.strongRecOn generalizing i s ss with
  | ind left ih =>
    cases here.round inBlock with
    | leaves closed ends =>
      rw [ends] at h
      obtain ⟨_, rfl⟩ := CallTree.returns_done_iff.1 h
      exact closed
    | @goesOn _ _ j _ there later loop =>
      obtain ⟨rest, others, _⟩ := (loop ss t).1 h
      have whole := there.length_tokens
      exact ih _ (by omega) there others rfl

end Rounds

end Parser

open Monkey.Parser CallTree in
/-- Reading a text ends, and the cursor is then on the end token. Every production ends, on whatever token it is
started, and does not move back. Within an expression all expressions start on later tokens, so that no more of them
are open at one time than there are tokens from the first on. A round of a loop of statements takes a token or leaves
the loop. -/
theorem parsing_ends (source : String) :
    (∃ ss t, Returns produce (statements false (State.start source)) (.ok ss) t ∧ t.cursor.current.kind = .eof ∧
      parse source = ⟨⟨ss⟩, t.errors.toList⟩) ∧
    ∀ i (s : Parser.State), s.OnToken source i →
      (∀ {α : Type} {m : Parser α}, Production m →
        (∃ r t j, Returns produce (m s) r t ∧ t.OnToken source j ∧ i ≤ j) ∧
        ∀ calls, Nest produce (m s) calls → i + calls.countP (·.1.isExpression) ≤ (lex source).length) ∧
      (∀ above above' t, Visits produce (produce (.expression above) s) (.expression above') t →
        ∃ j, t.OnToken source j ∧ i < j) ∧
      ∀ inBlock, Round source inBlock i s := by
  refine ⟨?_, fun i s here => ⟨fun production => ⟨?_, fun calls nest => ?_⟩, fun _ _ _ => ?_, fun inBlock => ?_⟩⟩
  · obtain ⟨ss, t, returns, same⟩ := exists_returns_program source
    refine ⟨ss, t, .call returns (.done _ _), ?_, same⟩
    simpa using closed_of_returns (State.onToken_start source) returns
  · exact production.exists_returns here
  · exact production.countP_nest here nest
  · exact exists_later_onToken here
  · exact here.round inBlock

open Monkey.Parser CallTree in
/-- Three open parentheses: an expression starts on each of them and one on the end token, and all four are open at the
same time. -/
theorem parsing_ends_parentheses :
    let source := "((("
    let s := State.start source
    s.OnToken source 0 ∧ (∃ j, s.advance.OnToken source j ∧ 0 < j) ∧
      ∃ calls, Nest produce (produce .statement s) calls ∧
        calls.countP (·.1.isExpression) = (lex source).length ∧
        0 + calls.countP (·.1.isExpression) ≤ (lex source).length := by
  intro source s
  have here : s.OnToken source 0 := State.onToken_start source
  obtain ⟨productions, within, _⟩ := (parsing_ends source).2 0 s here
  have inner (t : Parser.State) (paren : t.cursor.current.kind = .lparen) :
      Visits produce (produce (.expression .lowest) t) (.expression .lowest) t.advance := by
    change Visits produce ((operand t).andThen _) _ _
    unfold operand
    rw [current_bind, paren]
    exact .here
  have paren : s.cursor.current.kind = .lparen := by decide +kernel
  have paren' : s.advance.cursor.current.kind = .lparen := by decide +kernel
  have paren'' : s.advance.advance.cursor.current.kind = .lparen := by decide +kernel
  have outer : Visits produce (produce .statement s) (.expression .lowest) s := by
    change Visits produce ((current >>= _ : Parser Statement) s) _ _
    rw [current_bind, paren]
    exact .here
  have first := inner s paren
  have nest : Nest produce (produce .statement s) _ :=
    .cons outer (.cons first (.cons (inner s.advance paren') (.cons (inner s.advance.advance paren'') (.nil _))))
  have four : 4 = (lex source).length := by decide +kernel
  exact ⟨here, within _ _ _ first, _, nest, four, (productions (.goal .statement)).2 _ nest⟩

end Monkey
