import Mathlib.Order.Basic
import Monkey.Proofs.Ensures
import Monkey.Trace

namespace Monkey

namespace CallTree

/-- The only moment of what does not depend on the past. -/
structure Timeless where

instance : Preorder Timeless where
  le _ _ := True
  le_refl _ := trivial
  le_trans _ _ _ _ _ := trivial

variable {World : Type} [Preorder World] {Goal : Type} {Result : Goal → Type} {State Stop α β : Type}

/-- From the world `w` on the call tree makes its calls where `pre` allows it in the world of that moment, and ends as
`post` says, if every call ends as `spec` says. -/
def EnsuresIn (pre : World → Goal → State → Prop)
    (spec : World → (goal : Goal) → Except Stop (Result goal) → State → Prop) :
    CallTree Result State Stop α → World → (World → Except Stop α → State → Prop) → Prop
  | .done r s, w, post => ∃ w', w ≤ w' ∧ post w' r s
  | .call goal s resume, w, post =>
    ∃ w', w ≤ w' ∧ pre w' goal s ∧
      ∀ w'', w' ≤ w'' → ∀ r s', spec w'' goal r s' → (resume r s').EnsuresIn pre spec w'' post

section Rules

variable {pre : World → Goal → State → Prop}
  {spec : World → (goal : Goal) → Except Stop (Result goal) → State → Prop} {w w' : World}

/-- What is ensured in a world is ensured in every world before it. -/
theorem EnsuresIn.earlier {tree : CallTree Result State Stop α} {post : World → Except Stop α → State → Prop}
    (h : tree.EnsuresIn pre spec w' post) (le : w ≤ w') : tree.EnsuresIn pre spec w post := by
  cases tree with
  | done r s =>
    obtain ⟨w₁, le₁, ends⟩ := h
    exact ⟨w₁, le.trans le₁, ends⟩
  | call goal s resume =>
    obtain ⟨w₁, le₁, allowed, next⟩ := h
    exact ⟨w₁, le.trans le₁, allowed, next⟩

theorem EnsuresIn.andThen {tree : CallTree Result State Stop α} {next : α → State → CallTree Result State Stop β}
    {mid : World → Except Stop α → State → Prop} {post : World → Except Stop β → State → Prop}
    (first : tree.EnsuresIn pre spec w mid)
    (value : ∀ w', w ≤ w' → ∀ a s, mid w' (.ok a) s → (next a s).EnsuresIn pre spec w' post)
    (stop : ∀ w', w ≤ w' → ∀ e s, mid w' (.error e) s → post w' (.error e) s) :
    (tree.andThen next).EnsuresIn pre spec w post := by
  induction tree generalizing w with
  | done r s =>
    obtain ⟨w₁, le, ends⟩ := first
    cases r with
    | ok a => exact (value w₁ le a s ends).earlier le
    | error e => exact ⟨w₁, le, stop w₁ le e s ends⟩
  | call goal s resume ih =>
    obtain ⟨w₁, le, allowed, rest⟩ := first
    refine ⟨w₁, le, allowed, fun w₂ le' r s' met => ih r s' (rest w₂ le' r s' met) ?_ ?_⟩
    · exact fun w₃ le'' => value w₃ (le.trans (le'.trans le''))
    · exact fun w₃ le'' => stop w₃ (le.trans (le'.trans le''))

/-- What is observed of a tree is its outcome. -/
theorem EnsuresIn.observe {tree : CallTree Result State Stop α}
    {post : World → Except Stop (Except Stop α) → State → Prop}
    (h : tree.EnsuresIn pre spec w fun w' r s => post w' (.ok r) s) : tree.observe.EnsuresIn pre spec w post := by
  induction tree generalizing w with
  | done r s => exact h
  | call goal s resume ih =>
    obtain ⟨w₁, le, allowed, rest⟩ := h
    exact ⟨w₁, le, allowed, fun w₂ le' r s' met => ih r s' (rest w₂ le' r s' met)⟩

end Rules

/-- Of the timeless world nothing need be said. -/
theorem EnsuresIn.ensures {pre : Timeless → Goal → State → Prop}
    {spec : Timeless → (goal : Goal) → Except Stop (Result goal) → State → Prop} {tree : CallTree Result State Stop α}
    {post : Timeless → Except Stop α → State → Prop} {pre' : Goal → State → Prop}
    {spec' : (goal : Goal) → Except Stop (Result goal) → State → Prop} {post' : Except Stop α → State → Prop}
    (h : tree.EnsuresIn pre spec ⟨⟩ post) (calls : ∀ goal s, pre ⟨⟩ goal s → pre' goal s)
    (ends : ∀ goal r s, spec' goal r s → spec ⟨⟩ goal r s) (imp : ∀ r s, post ⟨⟩ r s → post' r s) :
    tree.Ensures pre' (fun goal _ _ => spec' goal) fun _ => post' := by
  induction tree with
  | done r s =>
    obtain ⟨_, _, met⟩ := h
    exact imp r s met
  | call goal s resume ih =>
    obtain ⟨_, _, allowed, rest⟩ := h
    exact ⟨calls goal s allowed, fun _ r s' met => ih r s' (rest ⟨⟩ le_rfl r s' (ends goal r s' met))⟩

section Adequacy

variable {body : (goal : Goal) → Routine Result State Stop (Result goal)} {pre : World → Goal → State → Prop}
  {spec : World → (goal : Goal) → Except Stop (Result goal) → State → Prop} {w : World}
  {tree : CallTree Result State Stop α} {post : World → Except Stop α → State → Prop}

/-- A call is made where it is allowed, and its end meets the specification. -/
def Moment.Meets (pre : World → Goal → State → Prop)
    (spec : World → (goal : Goal) → Except Stop (Result goal) → State → Prop) (w : World) :
    Moment Result State Stop → Prop
  | .called goal s => pre w goal s
  | .ended goal r s => spec w goal r s

/-- If the routine of every goal meets the specification, then so does every moment of a run, each in some world on
the way, and so does its end. -/
theorem Course.ensuresIn
    (meets : ∀ w goal s, pre w goal s → (body goal s).EnsuresIn pre spec w fun w' => spec w' goal)
    {moments : List (Moment Result State Stop)} {finish : Option (Except Stop α × State)}
    (h : Course body moments tree finish) (ensures : tree.EnsuresIn pre spec w post) :
    ∃ w', w ≤ w' ∧ (∀ m ∈ moments, ∃ w'', w'' ≤ w' ∧ m.Meets pre spec w'') ∧
      ∀ r s, finish = some (r, s) → post w' r s := by
  induction h generalizing w with
  | done r s =>
    obtain ⟨w₁, le, ends⟩ := ensures
    refine ⟨w₁, le, (fun _ mem => nomatch mem), fun r' s' same => ?_⟩
    cases same
    exact ends
  | brokenOff tree => exact ⟨w, le_rfl, (fun _ mem => nomatch mem), fun _ _ same => nomatch same⟩
  | @inside _ goal s moments resume _ ih =>
    obtain ⟨w₁, le, allowed, _⟩ := ensures
    obtain ⟨w₂, le', each, _⟩ := ih (meets w₁ goal s allowed)
    refine ⟨w₂, le.trans le', List.forall_mem_cons.2 ⟨⟨w₁, le', allowed⟩, each⟩, fun _ _ same => nomatch same⟩
  | @call _ goal s s' inside later r finish resume _ _ first second =>
    obtain ⟨w₁, le, allowed, rest⟩ := ensures
    obtain ⟨w₂, le', each, ends⟩ := first (meets w₁ goal s allowed)
    have met := ends r s' rfl
    obtain ⟨w₃, le'', each', ends'⟩ := second (rest w₂ le' r s' met)
    refine ⟨w₃, le.trans (le'.trans le''), fun m mem => ?_, ends'⟩
    rcases List.mem_cons.1 mem with rfl | mem
    · exact ⟨w₁, le'.trans le'', allowed⟩
    rcases List.mem_append.1 mem with mem | mem
    · obtain ⟨w₄, before, met'⟩ := each m mem
      exact ⟨w₄, before.trans le'', met'⟩
    rcases List.mem_cons.1 mem with rfl | mem
    · exact ⟨w₂, le'', met⟩
    · exact each' m mem

/-- `Course.ensuresIn` for outcomes. -/
theorem Returns.ensuresIn
    (meets : ∀ w goal s, pre w goal s → (body goal s).EnsuresIn pre spec w fun w' => spec w' goal)
    {r : Except Stop α} {s : State} (h : Returns body tree r s) (ensures : tree.EnsuresIn pre spec w post) :
    ∃ w', w ≤ w' ∧ post w' r s := by
  obtain ⟨moments, course⟩ := h.exists_course
  obtain ⟨w', le, _, ends⟩ := course.ensuresIn meets ensures
  exact ⟨w', le, ends r s rfl⟩

end Adequacy

end CallTree

end Monkey
