import Monkey.Syntax

namespace Monkey

inductive ArithmeticOp where
  | add | sub | mul | div
  deriving DecidableEq

namespace ArithmeticOp

def toBinary : ArithmeticOp → BinaryOp
  | .add => .add
  | .sub => .sub
  | .mul => .mul
  | .div => .div

/-- The mathematical result. Division truncates toward zero. -/
def exact : ArithmeticOp → Int → Int → Int
  | .add, m, n => m + n
  | .sub, m, n => m - n
  | .mul, m, n => m * n
  | .div, m, n => m.tdiv n

/-- The name by which an overflow calls the operation. -/
def name : ArithmeticOp → String
  | .add => "addition"
  | .sub => "subtraction"
  | .mul => "multiplication"
  | .div => "division"

end ArithmeticOp

/-- An integer of 64 bits with a sign. -/
def FitsWord (n : Int) : Prop := -Int.pow 2 63 ≤ n ∧ n < Int.pow 2 63

instance : DecidablePred FitsWord := fun n => inferInstanceAs (Decidable (-Int.pow 2 63 ≤ n ∧ n < Int.pow 2 63))

inductive ArithmeticTree where
  | literal (n : Int64) (span : Span)
  | neg (operand : ArithmeticTree) (span : Span)
  | binary (op : ArithmeticOp) (left right : ArithmeticTree) (span : Span)

namespace ArithmeticTree

def toExpr : ArithmeticTree → Expr
  | .literal n span => .int n span
  | .neg operand span => .unary .neg operand.toExpr span
  | .binary op left right span => .binary op.toBinary left.toExpr right.toExpr span

/-- The mathematical value. It says nothing where a divisor is zero. -/
def value : ArithmeticTree → Int
  | .literal n _ => n.toInt
  | .neg operand _ => -operand.value
  | .binary op left right _ => op.exact left.value right.value

/-- The nodes in the order of evaluation: those on the left, those on the right, and the node itself. -/
def nodes : ArithmeticTree → List ArithmeticTree
  | .literal n span => [.literal n span]
  | .neg operand span => operand.nodes ++ [.neg operand span]
  | .binary op left right span => left.nodes ++ right.nodes ++ [.binary op left right span]

/-- What is wrong at the node itself: a divisor that is zero, or a value that does not fit. -/
def fault? : ArithmeticTree → Option String
  | .literal .. => none
  | .neg operand _ => if FitsWord (-operand.value) then none else some "integer overflow in negation"
  | .binary op left right _ =>
    if op = .div ∧ right.value = 0 then some "division by zero"
    else if FitsWord (op.exact left.value right.value) then none
    else some s!"integer overflow in {op.name}"

/-- The value, or what is wrong at the first node at fault. -/
def result (t : ArithmeticTree) : Except String Int :=
  match t.nodes.findSome? fault? with
  | none => .ok t.value
  | some fault => .error fault

end ArithmeticTree

inductive Comparison where
  | lt | gt | eq | notEq

namespace Comparison

def toBinary : Comparison → BinaryOp
  | .lt => .lt
  | .gt => .gt
  | .eq => .eq
  | .notEq => .notEq

/-- Whether it is true of the integers. -/
def holds : Comparison → Int → Int → Bool
  | .lt, m, n => m < n
  | .gt, m, n => m > n
  | .eq, m, n => m = n
  | .notEq, m, n => m ≠ n

end Comparison

end Monkey
