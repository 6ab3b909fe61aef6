import Monkey.Proofs.Ensures
import Monkey.Trace

namespace Monkey

namespace CallTree

variable {Goal : Type} {Result : Goal → Type} {State Stop α β : Type}

/-- The call tree makes its calls where `pre` allows it and ends as `post` says of the trace, the outcome and the last
state, if every call ends as `spec` says. -/
def Charts (pre : Goal → State → Prop)
    (spec : (goal : Goal) → State → List (Ended Result State Stop) → Except Stop (Result goal) → State → Prop) :
    CallTree Result State Stop α → (List (Ended Result State Stop) → Except Stop α → State → Prop) → Prop
  | .done r s, post => post [] r s
  | .call goal s resume, post =>
    pre goal s ∧ ∀ inside r s', spec goal s inside r s' →
      (resume r s').Charts pre spec fun later => post (inside ++ ⟨goal, s, r, s'⟩ :: later)

section Runs

variable {body : (goal : Goal) → Routine Result State Stop (Result goal)} {tree : CallTree Result State Stop α}
  {trace trace' : List (Ended Result State Stop)} {out out' : Except Stop α} {t t' : State}

theorem Traces.returns (h : Traces body trace tree out t) : Returns body tree out t := by
  induction h with
  | done r s => exact .done r s
  | call _ _ first second => exact .call first second

/-- There is one call for each in the trace. -/
theorem Traces.returnsIn (h : Traces body trace tree out t) : ReturnsIn body trace.length tree out t := by
  induction h with
  | done r s => exact .done r s
  | call _ _ first second =>
    have together := ReturnsIn.call first second
    rwa [Nat.add_assoc, Nat.add_comm 1, ← List.length_cons, ← List.length_append] at together

theorem Returns.exists_traces (h : Returns body tree out t) : ∃ trace, Traces body trace tree out t := by
  induction h with
  | done r s => exact ⟨[], .done r s⟩
  | call _ _ first second =>
    obtain ⟨inside, first⟩ := first
    obtain ⟨later, second⟩ := second
    exact ⟨_, .call first second⟩

/-- Every call on the way to an outcome is in the trace. -/
theorem Traces.exists_ended {goal : Goal} {s : State} (visits : Visits body tree goal s)
    (h : Traces body trace tree out t) : ∃ r u, ⟨goal, s, r, u⟩ ∈ trace := by
  induction visits generalizing trace t with
  | here =>
    cases h with
    | call => exact ⟨_, _, List.mem_append_right _ (.head _)⟩
  | inside _ ih =>
    cases h with
    | call first =>
      obtain ⟨r, u, mem⟩ := ih first
      exact ⟨r, u, List.mem_append_left _ mem⟩
  | after returns _ ih =>
    cases h with
    | call first second =>
      obtain ⟨rfl, rfl⟩ := returns.unique first.returns
      obtain ⟨r, u, mem⟩ := ih second
      exact ⟨r, u, List.mem_append_right _ (.tail _ mem)⟩

end Runs

section Rules

variable {pre : Goal → State → Prop}
  {spec : (goal : Goal) → State → List (Ended Result State Stop) → Except Stop (Result goal) → State → Prop}

theorem Charts.mono {tree : CallTree Result State Stop α}
    {post post' : List (Ended Result State Stop) → Except Stop α → State → Prop} (h : tree.Charts pre spec post)
    (imp : ∀ trace r s, post trace r s → post' trace r s) : tree.Charts pre spec post' := by
  induction tree generalizing post post' with
  | done r s => exact imp _ _ _ h
  | call goal s resume ih =>
    exact ⟨h.1, fun inside r s' met => ih r s' (h.2 inside r s' met) fun later => imp _⟩

theorem Charts.weaken {pre' : Goal → State → Prop} {tree : CallTree Result State Stop α}
    {post : List (Ended Result State Stop) → Except Stop α → State → Prop} (h : tree.Charts pre spec post)
    (weaker : ∀ goal s, pre goal s → pre' goal s) : tree.Charts pre' spec post := by
  induction tree generalizing post with
  | done r s => exact h
  | call goal s resume ih => exact ⟨weaker _ _ h.1, fun inside r s' met => ih r s' (h.2 inside r s' met)⟩

/-- After a value the tree goes on, and the trace with it. -/
theorem Charts.andThen {tree : CallTree Result State Stop α} {next : α → State → CallTree Result State Stop β}
    {mid : List (Ended Result State Stop) → Except Stop α → State → Prop}
    {post : List (Ended Result State Stop) → Except Stop β → State → Prop} (first : tree.Charts pre spec mid)
    (value : ∀ trace a s, mid trace (.ok a) s → (next a s).Charts pre spec fun later => post (trace ++ later))
    (stop : ∀ trace e s, mid trace (.error e) s → post trace (.error e) s) :
    (tree.andThen next).Charts pre spec post := by
  induction tree generalizing mid post with
  | done r s =>
    cases r with
    | ok a => exact value [] a s first
    | error e => exact stop [] e s first
  | call goal s resume ih =>
    refine ⟨first.1, fun inside r s' met => ?_⟩
    refine ih r s' (first.2 inside r s' met) (fun trace a t h => ?_) fun trace e t h => stop _ e t h
    have rest := value _ a t h
    simp only [List.append_assoc, List.cons_append] at rest
    exact rest

/-- What is charted of every case is charted of all, if calls are allowed anywhere. -/
theorem charts_forall.{u} {ι : Sort u} (allowed : ∀ goal s, pre goal s) {tree : CallTree Result State Stop α}
    {post : ι → List (Ended Result State Stop) → Except Stop α → State → Prop}
    (h : ∀ x, tree.Charts pre spec (post x)) : tree.Charts pre spec fun trace r s => ∀ x, post x trace r s := by
  induction tree generalizing post with
  | done r s => exact h
  | call goal s resume ih => exact ⟨allowed goal s, fun inside r s' met => ih r s' fun x => (h x).2 inside r s' met⟩

/-- If what is known of every call includes how it returns, then so does what is charted of the tree. -/
theorem Charts.returns {body : (goal : Goal) → Routine Result State Stop (Result goal)}
    (calls : ∀ goal s inside r t, spec goal s inside r t → Returns body (body goal s) r t)
    {tree : CallTree Result State Stop α} {post : List (Ended Result State Stop) → Except Stop α → State → Prop}
    (h : tree.Charts pre spec post) :
    tree.Charts pre spec fun trace r t => post trace r t ∧ Returns body tree r t := by
  induction tree generalizing post with
  | done r s => exact ⟨h, .done r s⟩
  | call goal s resume ih =>
    refine ⟨h.1, fun inside r s' met => (ih r s' (h.2 inside r s' met)).mono fun later out t ends => ?_⟩
    exact ⟨ends.1, .call (calls goal s inside r s' met) ends.2⟩

end Rules

section Meeting

variable {body : (goal : Goal) → Routine Result State Stop (Result goal)} {pre : Goal → State → Prop}
  {spec : (goal : Goal) → State → List (Ended Result State Stop) → Except Stop (Result goal) → State → Prop}
  {tree : CallTree Result State Stop α} {post : List (Ended Result State Stop) → Except Stop α → State → Prop}

/-- If the routine of every goal meets the specification, then so does every trace. -/
theorem Traces.charts (meets : ∀ goal s, pre goal s → (body goal s).Charts pre spec (spec goal s))
    {trace : List (Ended Result State Stop)} {r : Except Stop α} {s : State} (h : Traces body trace tree r s)
    (charts : tree.Charts pre spec post) : post trace r s := by
  induction h with
  | done r s => exact charts
  | call _ _ first second =>
    have met := first (meets _ _ charts.1)
    exact second (charts.2 _ _ _ met)

/-- If besides every goal comes to an end, then so does every tree that meets a specification. -/
theorem Charts.exists_traces (meets : ∀ goal s, pre goal s → (body goal s).Charts pre spec (spec goal s))
    (ends : ∀ goal s, pre goal s → ∃ r t, Returns body (body goal s) r t) (charts : tree.Charts pre spec post) :
    ∃ trace r t, Traces body trace tree r t := by
  induction tree generalizing post with
  | done r s => exact ⟨[], r, s, .done r s⟩
  | call goal s resume ih =>
    obtain ⟨allowed, next⟩ := charts
    obtain ⟨r, s', returns⟩ := ends goal s allowed
    obtain ⟨inside, first⟩ := returns.exists_traces
    obtain ⟨later, out, t, second⟩ := ih r s' (next inside r s' (first.charts meets (meets goal s allowed)))
    exact ⟨_, out, t, .call first second⟩

/-- Every call on the way is made where the specification allows it. -/
theorem Visits.charts (meets : ∀ goal s, pre goal s → (body goal s).Charts pre spec (spec goal s)) {goal : Goal}
    {t : State} (h : Visits body tree goal t) (charts : tree.Charts pre spec post) : pre goal t := by
  induction h with
  | here => exact charts.1
  | inside _ ih => exact ih (meets _ _ charts.1)
  | after returns _ ih =>
    obtain ⟨trace, run⟩ := returns.exists_traces
    exact ih (charts.2 _ _ _ (run.charts meets (meets _ _ charts.1)))

end Meeting

section Measured

variable {body : (goal : Goal) → Routine Result State Stop (Result goal)} {pre : Goal → State → Prop}
  {spec : (goal : Goal) → State → List (Ended Result State Stop) → Except Stop (Result goal) → State → Prop}
  {measure : Goal → State → Nat}
  (meets : ∀ goal s, pre goal s →
    (body goal s).Charts (fun goal' t => pre goal' t ∧ measure goal' t < measure goal s) spec (spec goal s))

include meets

theorem meets_below (bound : Nat) (goal : Goal) (s : State) (allowed : pre goal s ∧ measure goal s < bound) :
    (body goal s).Charts (fun goal' t => pre goal' t ∧ measure goal' t < bound) spec (spec goal s) :=
  (meets goal s allowed.1).weaken fun _ _ inside => ⟨inside.1, Nat.lt_trans inside.2 allowed.2⟩

/-- Where goals call only goals of a smaller measure, all calls within them are of a smaller one. -/
theorem Visits.measure_lt {goal goal' : Goal} {s t : State} (allowed : pre goal s)
    (h : Visits body (body goal s) goal' t) : measure goal' t < measure goal s := by
  exact (h.charts (meets_below meets (measure goal s)) (meets goal s allowed)).2

/-- Where goals call only goals of a smaller measure, every tree has an outcome. -/
theorem Charts.exists_traces_of_measure {tree : CallTree Result State Stop α}
    {post : List (Ended Result State Stop) → Except Stop α → State → Prop} (charts : tree.Charts pre spec post) :
    ∃ trace r s, Traces body trace tree r s ∧ post trace r s := by
  -- Goals below a bound come to an end, by induction on the bound.
  have below (bound : Nat) : ∀ goal s, (pre goal s ∧ measure goal s < bound) →
      ∃ r t, Returns body (body goal s) r t := by
    induction bound with
    | zero => exact fun goal s allowed => absurd allowed.2 (Nat.not_lt_zero _)
    | succ bound ih =>
      rintro goal s ⟨allowed, less⟩
      have inner : (body goal s).Charts (fun goal' t => pre goal' t ∧ measure goal' t < bound) spec (spec goal s) :=
        (meets goal s allowed).weaken fun _ _ inside => ⟨inside.1, by omega⟩
      obtain ⟨_, r, t, run⟩ := inner.exists_traces (meets_below meets bound) ih
      exact ⟨r, t, run.returns⟩
  have meets' : ∀ goal s, pre goal s → (body goal s).Charts pre spec (spec goal s) := fun goal s allowed =>
    (meets goal s allowed).weaken fun _ _ inside => inside.1
  obtain ⟨trace, r, s, run⟩ := charts.exists_traces meets' fun goal s allowed =>
    below (measure goal s + 1) goal s ⟨allowed, Nat.lt_succ_self _⟩
  exact ⟨trace, r, s, run, run.charts meets' charts⟩

end Measured


end CallTree

end Monkey
