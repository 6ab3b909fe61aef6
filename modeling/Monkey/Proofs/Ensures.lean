import Monkey.Routine

namespace Monkey

namespace CallTree

variable {Goal : Type} {Result : Goal → Type} {State Stop α β : Type}

/-- The outcome and last state of a call tree, with the number of calls that lead to it. -/
inductive ReturnsIn (body : (goal : Goal) → Routine Result State Stop (Result goal)) :
    {α : Type} → Nat → CallTree Result State Stop α → Except Stop α → State → Prop
  | done {α : Type} (r : Except Stop α) (s : State) : ReturnsIn body 0 (.done r s) r s
  | call {α : Type} {goal : Goal} {n m : Nat} {s s' t : State} {r : Except Stop (Result goal)}
      {out : Except Stop α} {resume : Except Stop (Result goal) → State → CallTree Result State Stop α} :
      ReturnsIn body n (body goal s) r s' → ReturnsIn body m (resume r s') out t →
      ReturnsIn body (n + 1 + m) (.call goal s resume) out t

/-- While the call tree is followed, `goal` is called in the state `s`. The call need not come to an end. -/
inductive Visits (body : (goal : Goal) → Routine Result State Stop (Result goal)) :
    {α : Type} → CallTree Result State Stop α → Goal → State → Prop
  | here {α : Type} {goal : Goal} {s : State}
      {resume : Except Stop (Result goal) → State → CallTree Result State Stop α} :
      Visits body (.call goal s resume) goal s
  | inside {α : Type} {goal goal' : Goal} {s t : State}
      {resume : Except Stop (Result goal) → State → CallTree Result State Stop α} :
      Visits body (body goal s) goal' t → Visits body (.call goal s resume) goal' t
  | after {α : Type} {goal goal' : Goal} {s s' t : State} {r : Except Stop (Result goal)}
      {resume : Except Stop (Result goal) → State → CallTree Result State Stop α} :
      Returns body (body goal s) r s' → Visits body (resume r s') goal' t →
      Visits body (.call goal s resume) goal' t

/-- The call tree makes its calls where `pre` allows it and ends as `post` says of the number of calls, the
outcome and the last state, if every call ends as `spec` says. -/
def Ensures (pre : Goal → State → Prop)
    (spec : (goal : Goal) → State → Nat → Except Stop (Result goal) → State → Prop) :
    CallTree Result State Stop α → (Nat → Except Stop α → State → Prop) → Prop
  | .done r s, post => post 0 r s
  | .call goal s resume, post =>
    pre goal s ∧ ∀ n r s', spec goal s n r s' → (resume r s').Ensures pre spec fun m => post (n + 1 + m)

section Runs

variable {body : (goal : Goal) → Routine Result State Stop (Result goal)}

theorem ReturnsIn.returns {n : Nat} {tree : CallTree Result State Stop α} {out : Except Stop α} {t : State}
    (h : ReturnsIn body n tree out t) : Returns body tree out t := by
  induction h with
  | done r s => exact .done r s
  | call _ _ first second => exact .call first second

theorem Returns.exists_returnsIn {tree : CallTree Result State Stop α} {out : Except Stop α} {t : State}
    (h : Returns body tree out t) : ∃ n, ReturnsIn body n tree out t := by
  induction h with
  | done r s => exact ⟨0, .done r s⟩
  | call _ _ first second =>
    obtain ⟨n, first⟩ := first
    obtain ⟨m, second⟩ := second
    exact ⟨n + 1 + m, .call first second⟩

/-- What is called within a call is called while the tree is followed. -/
theorem Visits.trans {tree : CallTree Result State Stop α} {goal goal' : Goal} {s t : State}
    (outer : Visits body tree goal s) (inner : Visits body (body goal s) goal' t) : Visits body tree goal' t := by
  induction outer with
  | here => exact .inside inner
  | inside _ ih => exact .inside (ih inner)
  | after returns _ ih => exact .after returns (ih inner)

/-- The calls that wait do not change while a call above them is followed. -/
theorem ReturnsIn.proceed {γ : Type} {n : Nat} {tree : CallTree Result State Stop α} {r : Except Stop α}
    {s : State} (h : ReturnsIn body n tree r s) (frames : Frames Result State Stop α γ) (budget : Nat) :
    proceed body (n + budget) (advance tree frames) = CallTree.proceed body budget (unwind frames r s) := by
  induction h generalizing budget with
  | done r s => rw [Nat.zero_add]; rfl
  | @call α goal n m s s' t r out resume _ _ first second =>
    have sum : n + 1 + m + budget = (n + (m + budget)) + 1 := by omega
    rw [sum]
    change CallTree.proceed body (n + (m + budget)) (advance (body goal s) (.push resume frames)) = _
    rw [first, unwind_push, second]

/-- A run with room for all calls finds the outcome. -/
theorem ReturnsIn.run_eq {n budget : Nat} {tree : CallTree Result State Stop α} {out : Except Stop α}
    {t : State} (h : ReturnsIn body n tree out t) (le : n ≤ budget) : run body budget tree = some (out, t) := by
  have found := h.proceed .nil (budget - n)
  rw [Nat.add_sub_cancel' le] at found
  rw [run, found]
  cases budget - n <;> rfl

/-- A run without room for all calls finds nothing. -/
theorem ReturnsIn.proceed_eq_none {γ : Type} {n : Nat} {tree : CallTree Result State Stop α} {r : Except Stop α}
    {s : State} (h : ReturnsIn body n tree r s) (frames : Frames Result State Stop α γ) {budget : Nat}
    (lt : budget < n) : CallTree.proceed body budget (advance tree frames) = none := by
  induction h generalizing budget with
  | done r s => exact absurd lt (Nat.not_lt_zero _)
  | @call α goal n m s s' t r out resume first _ ih ih' =>
    cases budget with
    | zero => rfl
    | succ budget =>
      change CallTree.proceed body budget (advance (body goal s) (.push resume frames)) = none
      by_cases inside : budget < n
      · exact ih _ inside
      · obtain ⟨left, rfl⟩ := Nat.exists_eq_add_of_le (Nat.not_lt.1 inside)
        rw [first.proceed, unwind_push]
        exact ih' _ (by omega)

/-- A run finds an outcome if and only if it has room for the calls that lead to it. -/
theorem run_eq_some_iff {budget : Nat} {tree : CallTree Result State Stop α} {out : Except Stop α} {t : State} :
    run body budget tree = some (out, t) ↔ ∃ n ≤ budget, ReturnsIn body n tree out t := by
  constructor
  · intro found
    obtain ⟨n, returns⟩ := (exists_run_iff_returns.1 ⟨budget, found⟩).exists_returnsIn
    refine ⟨n, Nat.not_lt.1 fun lt => ?_, returns⟩
    rw [run, returns.proceed_eq_none .nil lt] at found
    cases found
  · rintro ⟨n, le, returns⟩
    exact returns.run_eq le

/-- The tree with another outcome made of its outcome. -/
def conclude (f : Except Stop α → Except Stop β) : CallTree Result State Stop α → CallTree Result State Stop β
  | .done r s => .done (f r) s
  | .call goal s resume => .call goal s fun r s' => (resume r s').conclude f

section Conclude

variable {f : Except Stop α → Except Stop β} {tree : CallTree Result State Stop α}

theorem returnsIn_conclude_iff {n : Nat} {out : Except Stop β} {t : State} :
    ReturnsIn body n (tree.conclude f) out t ↔ ∃ r, ReturnsIn body n tree r t ∧ out = f r := by
  constructor
  · intro h
    induction tree generalizing n with
    | done r s =>
      cases h
      exact ⟨_, .done _ _, rfl⟩
    | call goal s resume ih =>
      cases h with
      | call first second =>
        obtain ⟨r, second, same⟩ := ih _ _ second
        exact ⟨r, .call first second, same⟩
  · rintro ⟨r, h, rfl⟩
    induction h with
    | done r s => exact .done _ _
    | call first _ _ ih => exact .call first ih

/-- With each budget the outcome of the one is made of the outcome of the other. -/
theorem run_conclude (budget : Nat) :
    run body budget (tree.conclude f) = (run body budget tree).map fun (r, t) => (f r, t) := by
  refine Option.ext fun (out, t) => ?_
  rw [run_eq_some_iff, Option.map_eq_some_iff]
  constructor
  · rintro ⟨n, le, concluded⟩
    obtain ⟨r, returns, rfl⟩ := returnsIn_conclude_iff.1 concluded
    exact ⟨(r, t), run_eq_some_iff.2 ⟨n, le, returns⟩, rfl⟩
  · rintro ⟨⟨r, _⟩, found, same⟩
    cases same
    obtain ⟨n, le, returns⟩ := run_eq_some_iff.1 found
    exact ⟨n, le, returnsIn_conclude_iff.2 ⟨r, returns, rfl⟩⟩

/-- The calls on the way are the same. -/
theorem visits_conclude_iff {goal : Goal} {t : State} :
    Visits body (tree.conclude f) goal t ↔ Visits body tree goal t := by
  induction tree with
  | done r s => constructor <;> exact nofun
  | call goal' s resume ih =>
    constructor
    · intro h
      cases h with
      | here => exact .here
      | inside inner => exact .inside inner
      | after returns later => exact .after returns ((ih _ _).1 later)
    · intro h
      cases h with
      | here => exact .here
      | inside inner => exact .inside inner
      | after returns later => exact .after returns ((ih _ _).2 later)

end Conclude

/-- The waiting calls, once they have the outcome `r`, come to call `goal` in the state `t`. -/
def Frames.Visits (body : (goal : Goal) → Routine Result State Stop (Result goal)) {γ : Type} :
    {α : Type} → Frames Result State Stop α γ → Except Stop α → State → Goal → State → Prop
  | _, .nil, _, _, _, _ => False
  | _, .push resume rest, r, s, goal, t =>
    CallTree.Visits body (resume r s) goal t ∨
      ∃ r' s', Returns body (resume r s) r' s' ∧ rest.Visits body r' s' goal t

/-- A run that stands here comes to call `goal` in the state `t`. -/
def Progress.Visits (body : (goal : Goal) → Routine Result State Stop (Result goal)) {γ : Type} :
    Progress Result State Stop γ → Goal → State → Prop
  | .finished .., _, _ => False
  | .pending goal s frames, goal', t =>
    (goal = goal' ∧ s = t) ∨ CallTree.Visits body (body goal s) goal' t ∨
      ∃ r s', Returns body (body goal s) r s' ∧ frames.Visits body r s' goal' t

/-- A run after some more calls. -/
def Progress.after (body : (goal : Goal) → Routine Result State Stop (Result goal)) {γ : Type} :
    (calls : Nat) → Progress Result State Stop γ → Progress Result State Stop γ
  | 0, p => p
  | _ + 1, .finished r s => .finished r s
  | calls + 1, .pending goal s frames => (advance (body goal s) frames).after body calls

theorem visits_of_advance {α γ : Type} {tree : CallTree Result State Stop α}
    {frames : Frames Result State Stop α γ} {goal : Goal} {t : State} (h : (advance tree frames).Visits body goal t) :
    CallTree.Visits body tree goal t ∨ ∃ r s, Returns body tree r s ∧ frames.Visits body r s goal t := by
  induction frames with
  | nil =>
    cases tree with
    | done r s => exact h.elim
    | call goal' s resume =>
      rcases h with ⟨rfl, rfl⟩ | inside | ⟨r, s', returns, visits | ⟨_, _, _, never⟩⟩
      · exact .inl .here
      · exact .inl (.inside inside)
      · exact .inl (.after returns visits)
      · exact never.elim
  | push resume rest ih =>
    cases tree with
    | done r s =>
      rw [advance, unwind_push] at h
      exact .inr ⟨r, s, .done r s, ih h⟩
    | call goal' s resume' =>
      rcases h with ⟨rfl, rfl⟩ | inside | ⟨r, s', returns, visits | ⟨r', s'', second, later⟩⟩
      · exact .inl .here
      · exact .inl (.inside inside)
      · exact .inl (.after returns visits)
      · exact .inr ⟨r', s'', .call returns second, later⟩

theorem Progress.visits_of_after {γ : Type} {n : Nat} {p : Progress Result State Stop γ} {goal : Goal} {t : State}
    (h : (p.after body n).Visits body goal t) : p.Visits body goal t := by
  induction n generalizing p with
  | zero => exact h
  | succ n ih =>
    cases p with
    | finished => exact h
    | pending goal' s frames =>
      rcases visits_of_advance (ih h) with inside | after
      · exact .inr (.inl inside)
      · exact .inr (.inr after)

/-- Wherever a run stands before a call, the call tree makes that call. -/
theorem visits_of_pending {n : Nat} {tree : CallTree Result State Stop α} {goal : Goal} {t : State}
    {frames : Frames Result State Stop (Result goal) α}
    (h : (advance tree .nil).after body n = .pending goal t frames) : CallTree.Visits body tree goal t := by
  have here : ((advance tree .nil).after body n).Visits body goal t := by
    rw [h]
    exact .inl ⟨rfl, rfl⟩
  rcases visits_of_advance (Progress.visits_of_after here) with visits | ⟨_, _, _, never⟩
  · exact visits
  · exact never.elim

end Runs

section Rules

variable {pre : Goal → State → Prop}
  {spec : (goal : Goal) → State → Nat → Except Stop (Result goal) → State → Prop}

theorem Ensures.mono {pre' : Goal → State → Prop} {tree : CallTree Result State Stop α}
    {post post' : Nat → Except Stop α → State → Prop} (h : tree.Ensures pre spec post)
    (weaker : ∀ goal s, pre goal s → pre' goal s) (imp : ∀ n r s, post n r s → post' n r s) :
    tree.Ensures pre' spec post' := by
  induction tree generalizing post post' with
  | done r s => exact imp _ _ _ h
  | call goal s resume ih =>
    exact ⟨weaker _ _ h.1, fun n r s' met => ih r s' (h.2 n r s' met) fun m => imp (n + 1 + m)⟩

theorem ensures_true (tree : CallTree Result State Stop α) :
    tree.Ensures (fun _ _ => True) spec fun _ _ _ => True := by
  induction tree with
  | done r s => trivial
  | call goal s resume ih => exact ⟨trivial, fun n r s' _ => ih r s'⟩

/-- After a value the tree goes on, with the calls so far counted in. -/
theorem Ensures.andThen {tree : CallTree Result State Stop α}
    {next : α → State → CallTree Result State Stop β} {mid : Nat → Except Stop α → State → Prop}
    {post : Nat → Except Stop β → State → Prop} (first : tree.Ensures pre spec mid)
    (value : ∀ n a s, mid n (.ok a) s → (next a s).Ensures pre spec fun m => post (n + m))
    (stop : ∀ n e s, mid n (.error e) s → post n (.error e) s) :
    (tree.andThen next).Ensures pre spec post := by
  induction tree generalizing mid post with
  | done r s =>
    cases r with
    | ok a => simpa using value 0 a s first
    | error e => exact stop 0 e s first
  | call goal s resume ih =>
    refine ⟨first.1, fun n r s' met => ih r s' (first.2 n r s' met) (fun m a t h => ?_) fun m e t h => ?_⟩
    · simpa only [Nat.add_assoc] using value (n + 1 + m) a t h
    · exact stop (n + 1 + m) e t h

/-- What is observed of a tree is its outcome. -/
theorem Ensures.observe {tree : CallTree Result State Stop α}
    {post : Nat → Except Stop (Except Stop α) → State → Prop}
    (h : tree.Ensures pre spec fun n r s => post n (.ok r) s) : tree.observe.Ensures pre spec post := by
  induction tree generalizing post with
  | done r s => exact h
  | call goal s resume ih => exact ⟨h.1, fun n r s' met => ih r s' (h.2 n r s' met)⟩

end Rules

section Adequacy

variable {body : (goal : Goal) → Routine Result State Stop (Result goal)} {pre : Goal → State → Prop}
  {spec : (goal : Goal) → State → Nat → Except Stop (Result goal) → State → Prop}

/-- If the routine of every goal meets the specification, then so does every outcome. -/
theorem ReturnsIn.ensures (meets : ∀ goal s, pre goal s → (body goal s).Ensures pre spec (spec goal s))
    {n : Nat} {tree : CallTree Result State Stop α} {r : Except Stop α} {s : State}
    {post : Nat → Except Stop α → State → Prop} (h : ReturnsIn body n tree r s)
    (ensures : tree.Ensures pre spec post) : post n r s := by
  induction h with
  | done r s => exact ensures
  | call _ _ first second =>
    have met := first (meets _ _ ensures.1)
    exact second (ensures.2 _ _ _ met)

/-- `ReturnsIn.ensures` for a specification that does not count. -/
theorem Returns.ensures (meets : ∀ goal s, pre goal s → (body goal s).Ensures pre spec (spec goal s))
    {tree : CallTree Result State Stop α} {r : Except Stop α} {s : State}
    {post : Except Stop α → State → Prop} (h : Returns body tree r s)
    (ensures : tree.Ensures pre spec fun _ => post) : post r s := by
  obtain ⟨n, h⟩ := h.exists_returnsIn
  exact h.ensures meets ensures

/-- Every call on the way is made where the specification allows it. -/
theorem Visits.ensures (meets : ∀ goal s, pre goal s → (body goal s).Ensures pre spec (spec goal s))
    {tree : CallTree Result State Stop α} {goal : Goal} {t : State}
    {post : Nat → Except Stop α → State → Prop} (h : Visits body tree goal t)
    (ensures : tree.Ensures pre spec post) : pre goal t := by
  induction h with
  | here => exact ensures.1
  | inside _ ih => exact ih (meets _ _ ensures.1)
  | after returns _ ih =>
    obtain ⟨n, returns⟩ := returns.exists_returnsIn
    exact ih (ensures.2 _ _ _ (returns.ensures meets (meets _ _ ensures.1)))

end Adequacy

end CallTree

end Monkey
