import Monkey.Proofs.Discipline

namespace Monkey

namespace Parser

/-- The calls that a goal may make beyond eight for each token that it takes, with so many tokens left. -/
def Goal.surcharge : Goal → Nat → Nat
  | .expression _, _ => 1
  | .statement, _ => 2
  | .statements _, 0 => 0
  | .statements _, _ + 1 => 4
  | _, _ => 0

theorem surcharge_statements_le (inBlock : Bool) (n : Nat) : (Goal.statements inBlock).surcharge n ≤ 4 := by
  unfold Goal.surcharge
  split <;> simp_all

/-- With the token behind the current one given up, there is enough for the statements behind it. -/
theorem surcharge_statements_advance_le (inBlock : Bool) {s : State} (aligned : s.Aligned) :
    (Goal.statements inBlock).surcharge s.advance.tokens.length + 8 * s.advance.tokens.length ≤
      8 * s.tokens.length := by
  rw [State.tokens_advance aligned, List.length_tail]
  cases s.tokens.length with
  | zero => exact Nat.le_refl _
  | succ n =>
    have surcharge := surcharge_statements_le inBlock n
    rw [Nat.add_sub_cancel]
    omega

/-- Goals call one another without taking a token only downwards. -/
def Goal.rank : Goal → Nat
  | .expression _ => 1
  | .statement => 2
  | .statements _ => 3
  | _ => 0

/-- No goal calls one of the same or a larger weight. -/
def Goal.weight (goal : Goal) (s : State) : Nat := 4 * s.tokens.length + goal.rank

/-- On the way from `s` to `t` at most eight calls were made for each token taken, and `extra` more. -/
def Within (s : State) (extra calls : Nat) (t : State) : Prop :=
  t.Aligned ∧ t.tokens.length ≤ s.tokens.length ∧ calls + 8 * t.tokens.length ≤ 8 * s.tokens.length + extra

/-- What the goal calls is paid for by the tokens that it takes, and its surcharge. -/
def Afforded (goal : Goal) (s : State) (inside : Trace) (_ : Except GivenUp goal.Result) (t : State) : Prop :=
  Within s (goal.surcharge s.tokens.length) inside.length t

/-- A state, and how many calls may still be made from there on. -/
structure Allowance where
  state : State
  calls : Nat

namespace Allowance

abbrev advance (p : Allowance) : Allowance := ⟨p.state.advance, p.calls⟩

abbrev countLiteral (p : Allowance) : Allowance := ⟨p.state.countLiteral, p.calls⟩

/-- There are eight calls for each token that is left. -/
def Suffices (p : Allowance) : Prop := p.state.Aligned ∧ 8 * p.state.tokens.length ≤ p.calls

end Allowance

theorem State.length_tokens_advance_le {s : State} (aligned : s.Aligned) :
    s.advance.tokens.length ≤ s.tokens.length := by
  rw [tokens_advance aligned, List.length_tail]
  exact Nat.sub_le _ _

theorem State.length_tokens_advance {s : State} (aligned : s.Aligned) (opened : s.tokens ≠ []) :
    s.advance.tokens.length + 1 = s.tokens.length := by
  have positive := List.length_pos_iff.2 opened
  rw [tokens_advance aligned, List.length_tail]
  omega

theorem State.opened_of_peek {s : State} {kind : TokenKind} (aligned : s.Aligned)
    (there : s.cursor.peek.kind = kind) (real : kind ≠ .eof) : s.tokens ≠ [] ∧ s.advance.tokens ≠ [] := by
  obtain ⟨rest, tokens, moved⟩ := tokens_of_peek_eq aligned there real
  exact ⟨tokens ▸ List.cons_ne_nil _ _, moved ▸ List.cons_ne_nil _ _⟩

/-- Only goals below `bound` are called, and every call is made out of the allowance. -/
def thrift (bound : Nat) : Discipline Allowance.state Allowance.advance Allowance.countLiteral where
  Calls goal t := t.Aligned ∧ goal.weight t < bound
  Kept := Afforded
  Holds := Allowance.Suffices
  Moves p trace q := q.state.tokens.length ≤ p.state.tokens.length ∧ trace.length + q.calls ≤ p.calls
  GivesUp p trace t := t.Aligned ∧ t.tokens.length ≤ p.state.tokens.length ∧
    trace.length + 8 * t.tokens.length ≤ p.calls
  lawful.state_onward _ := rfl
  lawful.state_numbered _ := rfl
  lawful.holds_onward := by
    rintro p ⟨aligned, enough⟩
    have shorter := State.length_tokens_advance_le aligned
    exact ⟨aligned.advance, Nat.le_trans (Nat.mul_le_mul_left 8 shorter) enough⟩
  lawful.holds_numbered := fun ⟨aligned, enough⟩ => ⟨aligned.countLiteral, enough⟩
  lawful.refl _ := ⟨Nat.le_refl _, by simp⟩
  lawful.trans := by
    rintro p q r trace later ⟨shorter, calls⟩ ⟨shorter', calls'⟩
    exact ⟨Nat.le_trans shorter' shorter, by rw [List.length_append]; omega⟩
  lawful.givesUp := by
    rintro p q trace later t ⟨shorter, calls⟩ ⟨aligned, shorter', calls'⟩
    exact ⟨aligned, Nat.le_trans shorter' shorter, by rw [List.length_append]; omega⟩
  lawful.moves_onward := fun ⟨aligned, _⟩ => ⟨State.length_tokens_advance_le aligned, by simp⟩
  lawful.moves_numbered _ := ⟨Nat.le_refl _, by simp⟩
  lawful.fail := by
    rintro p slot error ⟨aligned, enough⟩ _
    exact ⟨aligned.fail error, Nat.le_refl _, by rw [List.length_nil, Nat.zero_add]; exact enough⟩

/-- Started in `s`, the production uses up `extra` calls at most of what is allowed beyond eight for each token. -/
def Thrifty {α : Type} (bound extra : Nat) (m : Parser α) (s : State) : Prop :=
  ∀ calls, 8 * s.tokens.length + extra ≤ calls →
    (thrift bound).Has m ⟨s, calls⟩ fun _ q =>
      calls + 8 * q.state.tokens.length ≤ q.calls + (8 * s.tokens.length + extra)

section Rules

variable {α : Type} {bound extra : Nat} {s : State}

theorem thrifty_intro {m : Parser α} (h : s.Aligned → Thrifty bound extra m s) : Thrifty bound extra m s :=
  fun calls enough => .intro fun holds => h holds.1 calls enough

theorem Thrifty.weaken {m : Parser α} {less : Nat} (h : Thrifty bound less m s) (le : less ≤ extra) :
    Thrifty bound extra m s :=
  fun calls enough => (h calls (by omega)).mono fun _ q _ left => by omega

theorem ends_of_within {r : Except GivenUp α} {t : State} {trace : Trace} {calls : Nat}
    (h : Within s extra trace.length t) (enough : 8 * s.tokens.length + extra ≤ calls) :
    (thrift bound).Ends ⟨s, calls⟩
      (fun _ q => calls + 8 * q.state.tokens.length ≤ q.calls + (8 * s.tokens.length + extra)) trace r t := by
  obtain ⟨aligned, shorter, used⟩ := h
  cases r with
  | ok a =>
    have left : 8 * t.tokens.length ≤ calls - trace.length := by omega
    have moves : trace.length + (calls - trace.length) ≤ calls := by omega
    refine ⟨⟨t, calls - trace.length⟩, rfl, ⟨aligned, left⟩, ⟨shorter, moves⟩, ?_⟩
    dsimp only
    omega
  | error e =>
    have paid : trace.length + 8 * t.tokens.length ≤ calls := by omega
    exact ⟨aligned, shorter, paid⟩

theorem thrifty_call (goal : Goal) (below : goal.weight s < bound) :
    Thrifty bound (goal.surcharge s.tokens.length + 1) (Routine.call goal) s := by
  refine fun calls enough => .call (fun holds => ⟨holds.1, below⟩) fun holds inside r t kept => ?_
  have inner : Within s (goal.surcharge s.tokens.length) inside.length t := kept
  obtain ⟨aligned, shorter, used⟩ := inner
  refine ends_of_within ⟨aligned, shorter, ?_⟩ enough
  rw [List.length_append, List.length_singleton]
  omega

theorem aligned_of_leads {p q : Allowance} (leads : (thrift bound).Leads p q) : q.state.Aligned :=
  And.left (show q.Suffices from leads.holds)

theorem shorter_of_leads {p q : Allowance} (leads : (thrift bound).Leads p q) :
    q.state.tokens.length ≤ p.state.tokens.length :=
  leads.moves.elim fun _ moves => moves.1

/-- A semicolon is skipped at no cost. -/
theorem spent_of_skip {p q : Allowance} {calls most : Nat} (aligned : p.state.Aligned) (same : q = p ∨ q = p.advance)
    (spent : calls + 8 * p.state.tokens.length ≤ p.calls + most) :
    calls + 8 * q.state.tokens.length ≤ q.calls + most := by
  rcases same with rfl | rfl
  · exact spent
  · have shorter := State.length_tokens_advance_le aligned
    dsimp only
    omega

theorem within_of_ends {good : α → Allowance → Prop} {r : Except GivenUp α} {t : State} {trace : Trace}
    (h : (thrift bound).Ends ⟨s, 8 * s.tokens.length + extra⟩ good trace r t) : Within s extra trace.length t := by
  cases r with
  | ok a =>
    obtain ⟨q, rfl, ⟨aligned, enough⟩, ⟨shorter, used⟩, _⟩ := h
    dsimp only at shorter used
    exact ⟨aligned, shorter, by omega⟩
  | error e => exact h

end Rules

end Parser

end Monkey
