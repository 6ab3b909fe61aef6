import Monkey.Proofs.Passing
import Monkey.Proofs.Runs

namespace Monkey

namespace Evaluator

open CallTree

/-- To reach the goal from the state `s`, the evaluator comes to reach the part `part` from the state `s'`, and a
signal of the part is not caught. The premises say what the earlier parts have given. -/
inductive Awaits (release : Release) : (goal : Goal) → (s : State) → (part : Goal) → (s' : State) → Prop
  | operand {op e span site s} : Awaits release (.expression (.unary op e span) site) s (.expression e site) s
  | left {op l r span site s} : Awaits release (.expression (.binary op l r span) site) s (.expression l site) s
  | right {op l r span site s left s'} : (Goal.expression l site).Ends release s (.ok left) s' →
      Awaits release (.expression (.binary op l r span) site) s (.expression r site) s'
  | condition {c consequence alternative span site s} :
      Awaits release (.expression (.cond c consequence alternative span) site) s (.expression c site) s
  | branch {c consequence alternative span site s v s'} {b : Block} :
      (Goal.expression c site).Ends release s (.ok v) s' →
      (if v.isTruthy then some consequence else alternative) = some b →
      Awaits release (.expression (.cond c consequence alternative span) site) s (.statements b.statements site) s'
  | callee {f arguments span site s} :
      Awaits release (.expression (.call f arguments span) site) s (.expression f site) s
  | argument {f before e after span site s callee s₁ vs s₂} :
      (Goal.expression f site).Ends release s (.ok callee) s₁ →
      (Goal.expressions before site).Ends release s₁ (.ok vs) s₂ →
      Awaits release (.expression (.call f (before ++ e :: after) span) site) s (.expression e site) s₂
  | application {f arguments span site s callee s₁ vs s₂} :
      (Goal.expression f site).Ends release s (.ok callee) s₁ →
      (Goal.expressions arguments site).Ends release s₁ (.ok vs) s₂ →
      Awaits release (.expression (.call f arguments span) site) s (.call callee vs) s₂
  | element {before e after span site s vs s'} :
      (Goal.expressions before site).Ends release s (.ok vs) s' →
      Awaits release (.expression (.array (before ++ e :: after) span) site) s (.expression e site) s'
  | base {b i span site s} : Awaits release (.expression (.index b i span) site) s (.expression b site) s
  | index {b i span site s base s'} : (Goal.expression b site).Ends release s (.ok base) s' →
      Awaits release (.expression (.index b i span) site) s (.expression i site) s'
  | key {before k e after span site s t s'} :
      (Goal.table {} before site).Ends release s (.ok t) s' →
      Awaits release (.expression (.hash (before ++ (k, e) :: after) span) site) s (.expression k site) s'
  | value {before k e after span site s t s₁ key h s₂} :
      (Goal.table {} before site).Ends release s (.ok t) s₁ →
      (Goal.expression k site).Ends release s₁ (.ok key) s₂ → key.hashKey? = some h →
      Awaits release (.expression (.hash (before ++ (k, e) :: after) span) site) s (.expression e site) s₂
  | bound {id e span site s} : Awaits release (.statement (.bind id e span) site) s (.expression e site) s
  | returned {e span site s} : Awaits release (.statement (.ret (some e) span) site) s (.expression e site) s
  | alone {e site s} : Awaits release (.statement (.expr e) site) s (.expression e site) s
  | statement {before st after site s v s'} : (Goal.statements before site).Ends release s (.ok v) s' →
      Awaits release (.statements (before ++ st :: after) site) s (.statement st site) s'

/-- The part is reached inside the goal, at any depth, with no function body in between. -/
inductive Reaches (release : Release) : (goal : Goal) → (s : State) → (part : Goal) → (s' : State) → Prop
  | here {goal s} : Reaches release goal s goal s
  | inside {goal s middle s' part s''} :
      Awaits release goal s middle s' → Reaches release middle s' part s'' → Reaches release goal s part s''

section Rules

variable {release : Release} {α β : Type} {m : Evaluator α} {f : α → Evaluator β} {goal : Goal} {s s' t : State}

/-- The part is called by what is done first. -/
theorem exposes_bind (h : Exposes (perform release) (m s) goal t) : Exposes (perform release) ((m >>= f) s) goal t :=
  h.andThen _

/-- The part is called by what is done with the value of what is done first. -/
theorem exposes_bind_of_returns {a : α} (first : Returns (perform release) (m s) (.ok a) s')
    (h : Exposes (perform release) (f a s') goal t) : Exposes (perform release) ((m >>= f) s) goal t :=
  h.andThen_of_returns first

theorem returns_bind {a : α} {r : Except Signal β} (first : Returns (perform release) (m s) (.ok a) s')
    (second : Returns (perform release) (f a s') r t) : Returns (perform release) ((m >>= f) s) r t :=
  returns_andThen_iff.2 (.inl ⟨a, s', first, second⟩)

theorem exists_of_returns_bind {b : β} (h : Returns (perform release) ((m >>= f) s) (.ok b) t) :
    ∃ a s', Returns (perform release) (m s) (.ok a) s' ∧ Returns (perform release) (f a s') (.ok b) t := by
  rcases returns_andThen_iff.1 h with ⟨a, s', first, second⟩ | ⟨_, _, never⟩
  · exact ⟨a, s', first, second⟩
  · cases never

theorem returns_hashKey {key : Value} {h : HashKey} (hashable : key.hashKey? = some h) :
    Returns (perform release) (hashKey key s) (.ok h) s := by
  rw [hashKey, hashable]
  exact .done _ _

/-- A goal that is called ends as it does. -/
theorem Goal.Ends.called {goal : Goal} {r : Except Signal goal.Result} (h : goal.Ends release s r t) :
    Returns (perform release) ((Routine.call goal : Evaluator goal.Result) s) r t :=
  Interpreter.returns_goal_iff.2 h

end Rules

section Lists

variable {release : Release} {site : Site} {part : Goal} {s s' t : State}

/-- What the rest of a list comes to is come to after the expressions before it have given values. -/
theorem exposes_expressions {before rest : List Expr} {vs : List Value}
    (first : (Goal.expressions before site).Ends release s (.ok vs) s')
    (h : Exposes (perform release) (perform release (.expressions rest site) s') part t) :
    Exposes (perform release) (perform release (.expressions (before ++ rest) site) s) part t := by
  induction before generalizing s vs with
  | nil =>
    obtain ⟨_, rfl⟩ := returns_done_iff.1 first
    exact h
  | cons e before ih =>
    obtain ⟨v, u, head, others⟩ := exists_of_returns_bind first
    obtain ⟨ws, u', tail, finish⟩ := exists_of_returns_bind others
    obtain ⟨_, rfl⟩ := returns_done_iff.1 finish
    exact exposes_bind_of_returns head (exposes_bind (ih (Interpreter.returns_goal_iff.1 tail)).called)

theorem exposes_head (e : Expr) (es : List Expr) (s : State) :
    Exposes (perform release) (perform release (.expressions (e :: es) site) s) (.expression e site) s :=
  exposes_bind (exposes_call _ _)

/-- What the rest of a hash literal comes to is come to after the pairs before it have been put in. -/
theorem exposes_table {before rest : List (Expr × Expr)} {t₀ t₁ : HashTable Value}
    (first : (Goal.table t₀ before site).Ends release s (.ok t₁) s')
    (h : Exposes (perform release) (perform release (.table t₁ rest site) s') part t) :
    Exposes (perform release) (perform release (.table t₀ (before ++ rest) site) s) part t := by
  induction before generalizing s t₀ with
  | nil =>
    obtain ⟨same, rfl⟩ := returns_done_iff.1 first
    cases same
    exact h
  | cons p before ih =>
    obtain ⟨key, u, givesKey, others⟩ := exists_of_returns_bind first
    obtain ⟨place, u', hashes, others⟩ := exists_of_returns_bind others
    obtain ⟨v, u'', givesValue, others⟩ := exists_of_returns_bind others
    have later := (ih (Interpreter.returns_goal_iff.1 others)).called
    exact exposes_bind_of_returns givesKey (exposes_bind_of_returns hashes (exposes_bind_of_returns givesValue later))

theorem exposes_key (t : HashTable Value) (k e : Expr) (pairs : List (Expr × Expr)) (s : State) :
    Exposes (perform release) (perform release (.table t ((k, e) :: pairs) site) s) (.expression k site) s :=
  exposes_bind (exposes_call _ _)

theorem exposes_value {k e : Expr} {key : Value} {h : HashKey} (t : HashTable Value) (pairs : List (Expr × Expr))
    (gives : (Goal.expression k site).Ends release s (.ok key) s') (hashable : key.hashKey? = some h) :
    Exposes (perform release) (perform release (.table t ((k, e) :: pairs) site) s) (.expression e site) s' :=
  exposes_bind_of_returns gives.called
    (exposes_bind_of_returns (returns_hashKey hashable) (exposes_bind (exposes_call _ _)))

/-- A statement is come to after the ones before it have finished. -/
theorem exposes_block {before after : List Statement} {st : Statement} {last v : Option Value}
    (first : Returns (perform release) (block site last before s) (.ok v) s') :
    Exposes (perform release) (block site last (before ++ st :: after) s) (.statement st site) s' := by
  induction before generalizing s last with
  | nil =>
    obtain ⟨_, rfl⟩ := returns_done_iff.1 first
    exact exposes_bind (exposes_call _ _)
  | cons b before ih =>
    obtain ⟨w, u, head, tail⟩ := exists_of_returns_bind first
    exact exposes_bind_of_returns head (ih tail)

end Lists

section Contexts

variable {release : Release} {goal part : Goal} {s s' : State}

/-- In each of the places the part is called, and what waits for it hands a signal on. -/
theorem Awaits.exposes (h : Awaits release goal s part s') :
    Exposes (perform release) (perform release goal s) part s' := by
  cases h with
  | operand | left | condition | callee | base | bound | returned | alone => exact exposes_bind (exposes_call _ _)
  | right left | index left => exact exposes_bind_of_returns left.called (exposes_bind (exposes_call _ _))
  | branch condition chosen =>
    refine exposes_bind_of_returns condition.called ?_
    rw [chosen]
    exact exposes_bind (exposes_call _ _)
  | argument callee before =>
    exact exposes_bind_of_returns callee.called (exposes_bind (exposes_expressions before (exposes_head ..)).called)
  | application callee arguments =>
    exact exposes_bind_of_returns callee.called (exposes_bind_of_returns arguments.called (exposes_call _ _))
  | element before => exact exposes_bind (exposes_expressions before (exposes_head ..)).called
  | key before => exact exposes_bind (exposes_table before (exposes_key ..)).called
  | value before key hashable => exact exposes_bind (exposes_table before (exposes_value _ _ key hashable)).called
  | statement before => exact exposes_block before

/-- The run of the whole comes to where the part begins, and if a signal ends the part, that is the end of the whole:
no call is made after those of the part. -/
theorem Reaches.exists_returnsIn (h : Reaches release goal s part s') :
    ∃ n, (∀ {γ : Type} (waiting : Frames Goal.Result State Signal goal.Result γ), ∃ frames,
        (advance (perform release goal s) waiting).after (perform release) n =
          advance (perform release part s') frames) ∧
      ∀ m x t, ReturnsIn (perform release) m (perform release part s') (.error x) t →
        ReturnsIn (perform release) (n + m) (perform release goal s) (.error x) t := by
  induction h with
  | here =>
    refine ⟨0, fun waiting => ⟨waiting, rfl⟩, fun m x t stops => ?_⟩
    rwa [Nat.zero_add]
  | inside awaits _ ih =>
    obtain ⟨n, comes, ends⟩ := awaits.exposes.exists_returnsIn
    obtain ⟨m, comes', ends'⟩ := ih
    refine ⟨n + 1 + m, fun waiting => ?_, fun k x t stops => ?_⟩
    · obtain ⟨frames, pending⟩ := comes waiting
      obtain ⟨frames', begins⟩ := comes' frames
      refine ⟨frames', ?_⟩
      rw [Nat.add_assoc, Progress.after_add, pending, Nat.add_comm 1 m]
      exact begins
    · rw [Nat.add_assoc]
      exact ends (m + k) x t (ends' k x t stops)

end Contexts

end Evaluator

end Monkey
