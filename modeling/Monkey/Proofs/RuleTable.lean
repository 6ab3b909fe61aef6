import Monkey.Proofs.Tokens
import Monkey.RuleTable

namespace Monkey

namespace Parser

/-- How an expression goes on, as the tables have it. -/
def Continuation.rule : Continuation → InfixRule
  | .binary _ => .operator
  | .call => .call
  | .index => .index

theorem infixRule?_eq (kind : TokenKind) :
    infixRule? kind = (Continuation.ofKind? kind).map fun c => (c.precedence, Continuation.rule c) := by
  cases kind <;> rfl

theorem precedence_eq (kind : TokenKind) :
    kind.precedence = (Continuation.ofKind? kind).elim .lowest Continuation.precedence := by
  rw [TokenKind.precedence, infixRule?_eq]
  cases Continuation.ofKind? kind <;> rfl

theorem precedence_of_some {kind : TokenKind} {c : Continuation} (h : Continuation.ofKind? kind = some c) :
    kind.precedence = c.precedence := by
  rw [precedence_eq, h]
  rfl

theorem precedence_of_none {kind : TokenKind} (h : Continuation.ofKind? kind = none) : kind.precedence = .lowest := by
  rw [precedence_eq, h]
  rfl

theorem ofKind?_of_binary {kind : TokenKind} {op : BinaryOp} (h : Continuation.ofKind? kind = some (.binary op)) :
    BinaryOp.ofKind? kind = some op := by
  cases kind <;> cases h <;> rfl

theorem ofKind?_semicolon : Continuation.ofKind? .semicolon = none := rfl

theorem not_lt_lowest (above : Precedence) : ¬ above < .lowest := Nat.not_lt_zero above.rank

variable (out : WaysOut) (s : State)

theorem operandByTable_eq : operandByTable out s = operand s := by
  unfold operandByTable operand
  rw [current_bind, current_bind]
  generalize s.cursor.current = token
  cases kind : token.kind <;> simp [prefixRule?, UnaryOp.ofKind?]

/-- On the token that an expression goes on with, the tables have what is needed. -/
theorem extendByTable_eq (left : Expr) {c : Continuation} (h : Continuation.ofKind? s.cursor.current.kind = some c) :
    extendByTable out left (Continuation.rule c) s = extend left c s := by
  cases c with
  | binary op =>
    unfold Continuation.rule extendByTable extend
    dsimp only
    rw [current_bind, ofKind?_of_binary h, precedence_eq, h]
    rfl
  | call => rfl
  | index => rfl

theorem continueByTable_eq (above : Precedence) (left : Expr) :
    continueByTable out above left s = produce (.continued above left) s := by
  unfold continueByTable produce
  dsimp only
  rw [peekKind_bind, peekKind_bind]
  rw [precedence_eq, infixRule?_eq]
  cases found : Continuation.ofKind? s.cursor.peek.kind with
  | none =>
    rw [if_neg fun h => not_lt_lowest above h.2]
  | some c =>
    have other : s.cursor.peek.kind ≠ .semicolon := by
      intro semicolon
      rw [semicolon, ofKind?_semicolon] at found
      cases found
    by_cases tighter : above < c.precedence
    · rw [if_pos ⟨other, tighter⟩]
      dsimp only
      rw [if_pos tighter]
      change (extendByTable out left (Continuation.rule c) s.advance).andThen _ = (extend left c s.advance).andThen _
      rw [extendByTable_eq out s.advance left found]
    · rw [if_neg fun h => tighter h.2]
      dsimp only
      rw [if_neg tighter]

/-- The productions are those of the tables, and none of the ways out is ever taken. -/
theorem produceByTables_eq (goal : Goal) : produceByTables out goal s = produce goal s := by
  cases goal with
  | expression above =>
    change (operandByTable out s).andThen _ = (operand s).andThen _
    rw [operandByTable_eq]
  | continued above left => exact continueByTable_eq out s above left
  | _ => rfl

end Parser

end Monkey
