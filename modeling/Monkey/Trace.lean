import Monkey.Routine

namespace Monkey

namespace CallTree

variable {Goal : Type} {Result : Goal → Type} {State Stop : Type}

/-- A call that has come to its end. -/
structure Ended (Result : Goal → Type) (State Stop : Type) where
  goal : Goal
  start : State
  outcome : Except Stop (Result goal)
  state : State

/-- The outcome and last state of a call tree, with the calls on the way. -/
inductive Traces (body : (goal : Goal) → Routine Result State Stop (Result goal)) :
    {α : Type} → List (Ended Result State Stop) → CallTree Result State Stop α → Except Stop α → State → Prop
  | done {α : Type} (r : Except Stop α) (s : State) : Traces body [] (.done r s) r s
  | call {α : Type} {goal : Goal} {inside later : List (Ended Result State Stop)} {s s' t : State}
      {r : Except Stop (Result goal)} {out : Except Stop α}
      {resume : Except Stop (Result goal) → State → CallTree Result State Stop α} :
      Traces body inside (body goal s) r s' → Traces body later (resume r s') out t →
      Traces body (inside ++ ⟨goal, s, r, s'⟩ :: later) (.call goal s resume) out t

/-- What is seen of a run at one time: a goal is called in a state, or a call comes to its end in a state. -/
inductive Moment (Result : Goal → Type) (State Stop : Type) where
  | called (goal : Goal) (state : State)
  | ended (goal : Goal) (outcome : Except Stop (Result goal)) (state : State)

/-- The moments of a run of the call tree, up to its outcome and last state or up to where it is broken off. -/
inductive Course (body : (goal : Goal) → Routine Result State Stop (Result goal)) :
    {α : Type} → List (Moment Result State Stop) → CallTree Result State Stop α → Option (Except Stop α × State) → Prop
  | done {α : Type} (r : Except Stop α) (s : State) : Course body [] (.done r s) (some (r, s))
  | brokenOff {α : Type} (tree : CallTree Result State Stop α) : Course body [] tree none
  | inside {α : Type} {goal : Goal} {s : State} {moments : List (Moment Result State Stop)}
      {resume : Except Stop (Result goal) → State → CallTree Result State Stop α} :
      Course body moments (body goal s) none → Course body (.called goal s :: moments) (.call goal s resume) none
  | call {α : Type} {goal : Goal} {s s' : State} {inside later : List (Moment Result State Stop)}
      {r : Except Stop (Result goal)} {finish : Option (Except Stop α × State)}
      {resume : Except Stop (Result goal) → State → CallTree Result State Stop α} :
      Course body inside (body goal s) (some (r, s')) → Course body later (resume r s') finish →
      Course body (.called goal s :: (inside ++ .ended goal r s' :: later)) (.call goal s resume) finish

/-- Every outcome is that of a course. -/
theorem Returns.exists_course {body : (goal : Goal) → Routine Result State Stop (Result goal)} {α : Type}
    {tree : CallTree Result State Stop α} {r : Except Stop α} {s : State} (h : Returns body tree r s) :
    ∃ moments, Course body moments tree (some (r, s)) := by
  induction h with
  | done r s => exact ⟨[], .done r s⟩
  | call _ _ first second =>
    obtain ⟨inside, first⟩ := first
    obtain ⟨later, second⟩ := second
    exact ⟨_, .call first second⟩

end CallTree

end Monkey
