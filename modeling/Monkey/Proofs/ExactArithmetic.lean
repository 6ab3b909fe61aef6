import Monkey.Arithmetic
import Monkey.Proofs.Contexts

namespace Monkey

open Evaluator CallTree

theorem toInt_ofInt_of_fits {n : Int} (fits : FitsWord n) : (Int64.ofInt n).toInt = n :=
  Int64.toInt_ofInt_of_le fits.1 fits.2

theorem fits_toInt (n : Int64) : FitsWord n.toInt := ⟨n.le_toInt, n.toInt_lt⟩

/-- The integer if it fits; else the operation is to blame. -/
def exactOr (operation : String) (n : Int) : Except String Int :=
  if FitsWord n then .ok n else .error s!"integer overflow in {operation}"

theorem fits_of_exactOr {operation : String} {n k : Int} (h : exactOr operation n = .ok k) : FitsWord k := by
  unfold exactOr at h
  split at h
  · next fits =>
    cases h
    exact fits
  · cases h

theorem checkedInt_eq (operation : String) (n : Int) :
    (checkedInt operation n).mapError RuntimeError.message =
      (exactOr operation n).map fun k => Value.int (.ofInt k) := by
  have bounds : (Int64.minValue.toInt ≤ n ∧ n ≤ Int64.maxValue.toInt) ↔ FitsWord n := by
    rw [Int64.toInt_minValue, Int64.toInt_maxValue]
    exact and_congr Iff.rfl Int.le_sub_one_iff
  unfold checkedInt wordOfInt? exactOr
  by_cases fits : FitsWord n
  · rw [if_pos (bounds.2 fits), if_pos fits]
    rfl
  · rw [if_neg (mt bounds.1 fits), if_neg fits]
    rfl

/-- The exact result of an operation, or what is wrong with it. -/
def ArithmeticOp.result (op : ArithmeticOp) (m n : Int) : Except String Int :=
  if op = .div ∧ n = 0 then .error "division by zero" else exactOr op.name (op.exact m n)

/-- An operator on words is the one on integers. -/
theorem applyToInts_toBinary (op : ArithmeticOp) {m n : Int} (left : FitsWord m) (right : FitsWord n) :
    (applyToInts op.toBinary (.ofInt m) (.ofInt n)).mapError RuntimeError.message =
      (op.result m n).map fun k => Value.int (.ofInt k) := by
  have checked := checkedInt_eq op.name (op.exact m n)
  cases op with
  | add | sub | mul =>
    simp only [ArithmeticOp.toBinary, applyToInts, toInt_ofInt_of_fits left, toInt_ofInt_of_fits right]
    exact checked
  | div =>
    have zero : Int64.ofInt n = 0 ↔ n = 0 := by
      rw [← Int64.toInt_inj, toInt_ofInt_of_fits right]
      rfl
    simp only [ArithmeticOp.toBinary, applyToInts, toInt_ofInt_of_fits left, toInt_ofInt_of_fits right, zero]
    unfold ArithmeticOp.result
    by_cases divisor : n = 0
    · rw [if_pos divisor, if_pos ⟨rfl, divisor⟩]
      rfl
    · rw [if_neg divisor, if_neg (fun both => divisor both.2)]
      exact checked

theorem applyToInts_comparison (op : Comparison) {m n : Int} (left : FitsWord m) (right : FitsWord n) :
    applyToInts op.toBinary (.ofInt m) (.ofInt n) = .ok (.bool (op.holds m n)) := by
  have same : Int64.ofInt m = Int64.ofInt n ↔ m = n := by
    rw [← Int64.toInt_inj, toInt_ofInt_of_fits left, toInt_ofInt_of_fits right]
  cases op with
  | lt | gt =>
    simp only [Comparison.toBinary, applyToInts, toInt_ofInt_of_fits left, toInt_ofInt_of_fits right]
    rfl
  | eq =>
    have decided : (Int64.ofInt m == Int64.ofInt n) = decide (m = n) := by
      rw [Bool.eq_iff_iff]
      simp [same]
    simp only [Comparison.toBinary, applyToInts, Comparison.holds, decided]
  | notEq =>
    have decided : (Int64.ofInt m != Int64.ofInt n) = decide (m ≠ n) := by
      rw [Bool.eq_iff_iff]
      simp [same]
    simp only [Comparison.toBinary, applyToInts, Comparison.holds, decided]

namespace ArithmeticTree

theorem findSome?_self (t : ArithmeticTree) : [t].findSome? fault? = t.fault? := by
  rw [List.findSome?_cons]
  cases t.fault? <;> rfl

theorem result_of_fault {t : ArithmeticTree} {fault : String} (h : t.nodes.findSome? fault? = some fault) :
    t.result = .error fault := by
  rw [result, h]

theorem result_of_sound {t : ArithmeticTree} (h : t.nodes.findSome? fault? = none) : t.result = .ok t.value := by
  rw [result, h]

theorem result_literal (n : Int64) (span : Span) : (literal n span).result = .ok n.toInt := rfl

/-- The fault of the operand comes first. -/
theorem result_neg (operand : ArithmeticTree) (span : Span) :
    (neg operand span).result = operand.result.bind fun m => exactOr "negation" (-m) := by
  have order : (neg operand span).nodes.findSome? fault? =
      (operand.nodes.findSome? fault?).or (neg operand span).fault? := by
    rw [nodes, List.findSome?_append, findSome?_self]
  cases below : operand.nodes.findSome? fault? with
  | some fault =>
    rw [below, Option.some_or] at order
    rw [result_of_fault order, result_of_fault below]
    rfl
  | none =>
    rw [below, Option.none_or, fault?] at order
    rw [result_of_sound below]
    change _ = exactOr "negation" (-operand.value)
    unfold exactOr
    by_cases fits : FitsWord (-operand.value)
    · rw [if_pos fits] at order ⊢
      exact result_of_sound order
    · rw [if_neg fits] at order ⊢
      exact result_of_fault order

/-- The fault of the left operand comes first, then that of the right one. -/
theorem result_binary (op : ArithmeticOp) (left right : ArithmeticTree) (span : Span) :
    (binary op left right span).result = left.result.bind fun m => right.result.bind fun n => op.result m n := by
  have order : (binary op left right span).nodes.findSome? fault? =
      ((left.nodes.findSome? fault?).or (right.nodes.findSome? fault?)).or (binary op left right span).fault? := by
    rw [nodes, List.findSome?_append, List.findSome?_append, findSome?_self]
  cases onLeft : left.nodes.findSome? fault? with
  | some fault =>
    rw [onLeft, Option.some_or, Option.some_or] at order
    rw [result_of_fault order, result_of_fault onLeft]
    rfl
  | none =>
    rw [onLeft, Option.none_or] at order
    rw [result_of_sound onLeft]
    cases onRight : right.nodes.findSome? fault? with
    | some fault =>
      rw [onRight, Option.some_or] at order
      rw [result_of_fault order, result_of_fault onRight]
      rfl
    | none =>
      rw [onRight, Option.none_or, fault?] at order
      rw [result_of_sound onRight]
      change _ = op.result left.value right.value
      unfold ArithmeticOp.result exactOr
      by_cases zero : op = .div ∧ right.value = 0
      · rw [if_pos zero] at order ⊢
        exact result_of_fault order
      · rw [if_neg zero] at order ⊢
        by_cases fits : FitsWord (op.exact left.value right.value)
        · rw [if_pos fits] at order ⊢
          exact result_of_sound order
        · rw [if_neg fits] at order ⊢
          exact result_of_fault order

theorem fits_of_result {t : ArithmeticTree} {n : Int} (h : t.result = .ok n) : FitsWord n := by
  cases t with
  | literal k span =>
    cases h
    exact fits_toInt k
  | neg operand span =>
    rw [result_neg] at h
    cases below : operand.result with
    | error fault => rw [below] at h; cases h
    | ok m =>
      rw [below] at h
      exact fits_of_exactOr h
  | binary op left right span =>
    rw [result_binary] at h
    cases onLeft : left.result with
    | error fault => rw [onLeft] at h; cases h
    | ok m =>
      cases onRight : right.result with
      | error fault => rw [onLeft, onRight] at h; cases h
      | ok k =>
        rw [onLeft, onRight] at h
        change op.result m k = .ok n at h
        unfold ArithmeticOp.result at h
        split at h
        · cases h
        · exact fits_of_exactOr h

end ArithmeticTree

namespace Evaluator

/-- The expression comes to the value, or to an error with the text. No scope changes and nothing is printed. -/
def Gives (release : Release) (site : Site) (s : State) (e : Expr) (r : Except String Value) : Prop :=
  ∃ id n, (Goal.expression e site).Ends release s (r.mapError (.error id)) { s with objects := n }

section Rules

variable {release : Release} {site : Site} {s : State}

theorem returns_bind_stop {α β : Type} {m : Evaluator α} {f : α → Evaluator β} {x : Signal} {t : State}
    (first : Returns (perform release) (m s) (.error x) t) : Returns (perform release) ((m >>= f) s) (.error x) t :=
  returns_andThen_iff.2 (.inr ⟨x, first, rfl⟩)

theorem exists_returns_ofResult (release : Release) (r : Except RuntimeError Value) (s : State) :
    ∃ id n, Returns (perform release) (ofResult r s) ((r.mapError RuntimeError.message).mapError (.error id))
      { s with objects := n } := by
  cases r with
  | ok v => exact ⟨0, s.objects, .done _ _⟩
  | error e => exact ⟨s.objects, s.objects + 1, .done _ _⟩

theorem gives_unary {op : UnaryOp} {e : Expr} {span : Span} {r : Except String Value}
    (operand : Gives release site s e r) :
    Gives release site s (.unary op e span) (r.bind fun v => (op.apply v).mapError RuntimeError.message) := by
  obtain ⟨id, n, ends⟩ := operand
  cases r with
  | error message => exact ⟨id, n, returns_bind_stop ends.called⟩
  | ok v =>
    obtain ⟨id', n', applied⟩ := exists_returns_ofResult release (op.apply v) { s with objects := n }
    exact ⟨id', n', returns_bind ends.called applied⟩

/-- The tree comes to its result, as a word. -/
def Computes (release : Release) (site : Site) (s : State) (t : ArithmeticTree) : Prop :=
  Gives release site s t.toExpr (t.result.map fun n => .int (.ofInt n))

/-- The right operand is come to when the left one has given a value. The result of two integers is no new object. -/
theorem Computes.binary {op : BinaryOp} {left right : ArithmeticTree} {span : Span}
    {f : Int → Int → Except String Value} (first : Computes release site s left)
    (second : ∀ n, Computes release site { s with objects := n } right)
    (agrees : ∀ m n, FitsWord m → FitsWord n →
      (applyToInts op (.ofInt m) (.ofInt n)).mapError RuntimeError.message = f m n) :
    Gives release site s (.binary op left.toExpr right.toExpr span)
      (left.result.bind fun m => right.result.bind fun n => f m n) := by
  obtain ⟨id, k, ends⟩ := first
  cases onLeft : left.result with
  | error message =>
    rw [onLeft] at ends
    exact ⟨id, k, returns_bind_stop ends.called⟩
  | ok m =>
    obtain ⟨id', k', ends'⟩ := second k
    rw [onLeft] at ends
    cases onRight : right.result with
    | error message =>
      rw [onRight] at ends'
      exact ⟨id', k', returns_bind ends.called (returns_bind_stop ends'.called)⟩
    | ok n =>
      rw [onRight] at ends'
      have same := agrees m n (ArithmeticTree.fits_of_result onLeft) (ArithmeticTree.fits_of_result onRight)
      obtain ⟨id'', k'', applied⟩ := exists_returns_ofResult release (applyToInts op (.ofInt m) (.ofInt n))
        { s with objects := k' + 1 }
      rw [same] at applied
      exact ⟨id'', k'', returns_bind ends.called (returns_bind ends'.called applied)⟩

/-- By induction on the tree, from any number of objects made before. -/
theorem computes_tree (t : ArithmeticTree) (s : State) : Computes release site s t := by
  induction t generalizing s with
  | literal n span =>
    rw [Computes, ArithmeticTree.result_literal, Except.map, Int64.ofInt_toInt]
    exact ⟨0, s.objects, .done _ _⟩
  | neg operand span ih =>
    have applied : Gives release site s (.unary .neg operand.toExpr span) _ := gives_unary (ih s)
    rw [Computes, ArithmeticTree.result_neg]
    cases below : operand.result with
    | error fault =>
      rw [below] at applied
      exact applied
    | ok m =>
      rw [below] at applied
      change Gives release site s _ ((checkedInt "negation" (-(Int64.ofInt m).toInt)).mapError _) at applied
      rw [toInt_ofInt_of_fits (ArithmeticTree.fits_of_result below), checkedInt_eq] at applied
      exact applied
  | binary op left right span ihLeft ihRight =>
    have mapped (r r' : Except String Int) :
        (r.bind fun m => r'.bind fun n => op.result m n).map (fun k => Value.int (.ofInt k)) =
          r.bind fun m => r'.bind fun n => (op.result m n).map fun k => .int (.ofInt k) := by
      cases r <;> cases r' <;> rfl
    rw [Computes, ArithmeticTree.result_binary, mapped]
    exact (ihLeft s).binary (fun n => ihRight _) fun m n => applyToInts_toBinary op

end Rules

end Evaluator

/-- Integer arithmetic is exact or an error. A tree of integers and operators comes to its mathematical value, as a
word, unless a node is at fault; then it comes to the error of the first one. A comparison of two such trees comes to
the truth about their values, or to the error of the left one, or else of the right one. -/
theorem arithmetic_exact (release : Release) (site : Site) (s : State) :
    (∀ t : ArithmeticTree, match t.nodes.findSome? ArithmeticTree.fault? with
      | none => ∃ word : Int64, word.toInt = t.value ∧ Gives release site s t.toExpr (.ok (.int word))
      | some fault => Gives release site s t.toExpr (.error fault)) ∧
    ∀ (op : Comparison) (left right : ArithmeticTree) (span : Span),
      Gives release site s (.binary op.toBinary left.toExpr right.toExpr span)
        (left.result.bind fun m => right.result.bind fun n => .ok (.bool (op.holds m n))) := by
  refine ⟨fun t => ?_, fun op left right span => ?_⟩
  · have computes : Computes release site s t := computes_tree t s
    unfold Computes at computes
    split
    · next none =>
      have result := ArithmeticTree.result_of_sound none
      rw [result] at computes
      exact ⟨_, toInt_ofInt_of_fits (ArithmeticTree.fits_of_result result), computes⟩
    · next fault first =>
      rw [ArithmeticTree.result_of_fault first] at computes
      exact computes
  · refine (computes_tree left s).binary (fun n => computes_tree right _) fun m n onLeft onRight => ?_
    rw [applyToInts_comparison op onLeft onRight]
    rfl

/-- The sum does not fit, though the difference would. -/
example :
    let tooLarge : ArithmeticTree := .binary .add (.literal 9223372036854775807 .origin) (.literal 1 .origin) .origin
    (ArithmeticTree.binary .sub tooLarge (.literal 1 .origin) .origin).result =
      .error "integer overflow in addition" := rfl

end Monkey
