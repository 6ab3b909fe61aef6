import Monkey.RuntimeError

namespace Monkey

/-- The integer as a machine word, if it fits. -/
def wordOfInt? (n : Int) : Option Int64 :=
  if Int64.minValue.toInt ≤ n ∧ n ≤ Int64.maxValue.toInt then some (.ofInt n) else none

/-- The integer as a value; `operation` is to blame if it does not fit. -/
def checkedInt (operation : String) (n : Int) : Except RuntimeError Value :=
  match wordOfInt? n with
  | some word => .ok (.int word)
  | none => .error (.overflow operation)

/-- Division truncates toward zero. -/
def applyToInts (op : BinaryOp) (m n : Int64) : Except RuntimeError Value :=
  match op with
  | .add => checkedInt "addition" (m.toInt + n.toInt)
  | .sub => checkedInt "subtraction" (m.toInt - n.toInt)
  | .mul => checkedInt "multiplication" (m.toInt * n.toInt)
  | .div => if n = 0 then .error .divisionByZero else checkedInt "division" (m.toInt.tdiv n.toInt)
  | .lt => .ok (.bool (m.toInt < n.toInt))
  | .gt => .ok (.bool (n.toInt < m.toInt))
  | .eq => .ok (.bool (m == n))
  | .notEq => .ok (.bool (m != n))

/-- The value of `left op right`; a new object gets the identity `fresh`. Strings can only be joined.
Of all but integers and strings, equality is identity. -/
def BinaryOp.apply (op : BinaryOp) (fresh : Identity) (left right : Value) : Except RuntimeError Value :=
  match left, right with
  | .int m, .int n => applyToInts op m n
  | .str _ s, .str _ t =>
    match op with
    | .add => .ok (.str fresh (s ++ t))
    | _ => .error (.unknownBinary .str op .str)
  | _, _ =>
    match op with
    | .eq => .ok (.bool (left.identical right))
    | .notEq => .ok (.bool (!left.identical right))
    | _ =>
      if left.kind = right.kind then .error (.unknownBinary left.kind op right.kind)
      else .error (.typeMismatch left.kind op right.kind)

/-- Of all but two integers or two strings, equality is identity, and no other operator is defined. -/
theorem BinaryOp.apply_of_others (op : BinaryOp) (fresh : Identity) {left right : Value}
    (notInts : ∀ k l, left = .int k → right = .int l → False)
    (notStrings : ∀ i s j t, left = .str i s → right = .str j t → False) :
    op.apply fresh left right =
      if op = .eq then .ok (.bool (left.identical right))
      else if op = .notEq then .ok (.bool (!left.identical right))
      else if left.kind = right.kind then .error (.unknownBinary left.kind op right.kind)
      else .error (.typeMismatch left.kind op right.kind) := by
  unfold BinaryOp.apply
  split
  · exact (notInts _ _ rfl rfl).elim
  · exact (notStrings _ _ _ _ rfl rfl).elim
  · cases op <;> rfl

def UnaryOp.apply (op : UnaryOp) (operand : Value) : Except RuntimeError Value :=
  match op, operand with
  | .not, v => .ok (.bool (!v.isTruthy))
  | .neg, .int n => checkedInt "negation" (-n.toInt)
  | .neg, v => .error (.unknownUnary .neg v.kind)

end Monkey
