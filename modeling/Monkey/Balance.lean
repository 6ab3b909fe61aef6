import Monkey.Token

namespace Monkey

/-- What a token of the kind adds to the balance. -/
def TokenKind.brace : TokenKind → Int
  | .lbrace => 1
  | .rbrace => -1
  | _ => 0

/-- How many braces more are opened in the row than closed. -/
def balance : List Token → Int
  | [] => 0
  | t :: ts => t.kind.brace + balance ts

@[simp] theorem balance_nil : balance [] = 0 := rfl

@[simp] theorem balance_cons (t : Token) (ts : List Token) : balance (t :: ts) = t.kind.brace + balance ts := rfl

@[simp] theorem balance_append (ts us : List Token) : balance (ts ++ us) = balance ts + balance us := by
  induction ts with
  | nil => simp
  | cons t ts ih => rw [List.cons_append, balance_cons, balance_cons, ih, Int.add_assoc]

/-- The balance is that of the counts of the two kinds. -/
theorem balance_eq_countP (ts : List Token) :
    balance ts = (ts.countP (·.kind = .lbrace) : Nat) - (ts.countP (·.kind = .rbrace) : Nat) := by
  induction ts with
  | nil => rfl
  | cons t ts ih =>
    rw [balance_cons, ih, List.countP_cons, List.countP_cons]
    cases kind : t.kind <;> simp [TokenKind.brace] <;> omega

end Monkey
