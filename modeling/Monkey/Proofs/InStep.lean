import Monkey.Proofs.Ensures
import Monkey.Proofs.Traces

namespace Monkey

namespace CallTree

variable {Goal : Type} {Result : Goal → Type} {State Stop α α' β β' : Type}

/-- Both have given values, which belong together as `value` says, or both have stopped, as `stop` says. -/
def EndAlike (value : α → State → α' → State → Prop) (stop : Stop → State → Stop → State → Prop) :
    Except Stop α → State → Except Stop α' → State → Prop
  | .ok a, t, .ok a', t' => value a t a' t'
  | .error e, t, .error e', t' => stop e t e' t'
  | _, _, _, _ => False

/-- The trees make their calls in step, each pair of calls as `allowed` says, and end as `post` says, if each pair of
calls ends as `spec` says. -/
def InStep (allowed : Goal → State → Goal → State → Prop)
    (spec : (goal : Goal) → State → (goal' : Goal) → State →
      Except Stop (Result goal) → State → Except Stop (Result goal') → State → Prop) :
    CallTree Result State Stop α → CallTree Result State Stop α' →
    (Except Stop α → State → Except Stop α' → State → Prop) → Prop
  | .done r t, .done r' t', post => post r t r' t'
  | .call goal s resume, .call goal' s' resume', post =>
    allowed goal s goal' s' ∧ ∀ r t r' t', spec goal s goal' s' r t r' t' →
      (resume r t).InStep allowed spec (resume' r' t') post
  | _, _, _ => False

variable {allowed : Goal → State → Goal → State → Prop}
  {spec : (goal : Goal) → State → (goal' : Goal) → State →
    Except Stop (Result goal) → State → Except Stop (Result goal') → State → Prop}
  {tree : CallTree Result State Stop α} {tree' : CallTree Result State Stop α'}
  {post : Except Stop α → State → Except Stop α' → State → Prop}

theorem InStep.mono {allowed' : Goal → State → Goal → State → Prop}
    {spec' : (goal : Goal) → State → (goal' : Goal) → State →
      Except Stop (Result goal) → State → Except Stop (Result goal') → State → Prop}
    {post' : Except Stop α → State → Except Stop α' → State → Prop} (h : tree.InStep allowed spec tree' post)
    (weaker : ∀ goal s goal' s', allowed goal s goal' s' → allowed' goal s goal' s')
    (stronger : ∀ goal s goal' s' r t r' t', spec' goal s goal' s' r t r' t' → spec goal s goal' s' r t r' t')
    (imp : ∀ r t r' t', post r t r' t' → post' r t r' t') : tree.InStep allowed' spec' tree' post' := by
  induction tree generalizing tree' with
  | done r s =>
    cases tree' with
    | done r' s' => exact imp _ _ _ _ h
    | call => exact h
  | call goal s resume ih =>
    cases tree' with
    | done => exact h
    | call goal' s' resume' =>
      exact ⟨weaker _ _ _ _ h.1, fun r t r' t' met => ih r t (h.2 r t r' t' (stronger _ _ _ _ _ _ _ _ met))⟩

/-- After values both go on, and they are to go on in step. -/
theorem InStep.andThen {next : α → State → CallTree Result State Stop β}
    {next' : α' → State → CallTree Result State Stop β'} {mid : α → State → α' → State → Prop}
    {value : β → State → β' → State → Prop} {stop : Stop → State → Stop → State → Prop}
    (first : tree.InStep allowed spec tree' (EndAlike mid stop))
    (rest : ∀ a s a' s', mid a s a' s' → (next a s).InStep allowed spec (next' a' s') (EndAlike value stop)) :
    (tree.andThen next).InStep allowed spec (tree'.andThen next') (EndAlike value stop) := by
  induction tree generalizing tree' with
  | done r s =>
    cases tree' with
    | done r' s' =>
      cases r with
      | ok a => cases r' with
        | ok a' => exact rest a s a' s' first
        | error => exact first.elim
      | error e => cases r' with
        | ok => exact first.elim
        | error e' => exact first
    | call => exact first.elim
  | call goal s resume ih =>
    cases tree' with
    | done => exact first.elim
    | call goal' s' resume' => exact ⟨first.1, fun r t r' t' met => ih r t (first.2 r t r' t' met)⟩

/-- What is observed of trees in step are their ends. -/
theorem InStep.observe {post : Except Stop (Except Stop α) → State → Except Stop (Except Stop α') → State → Prop}
    (h : tree.InStep allowed spec tree' fun r t r' t' => post (.ok r) t (.ok r') t') :
    tree.observe.InStep allowed spec tree'.observe post := by
  induction tree generalizing tree' with
  | done r s =>
    cases tree' with
    | done r' s' => exact h
    | call => exact h.elim
  | call goal s resume ih =>
    cases tree' with
    | done => exact h.elim
    | call goal' s' resume' => exact ⟨h.1, fun r t r' t' met => ih r t (h.2 r t r' t' met)⟩

/-- What each tree ensures by itself may be asked of the calls and is known of the ends. -/
theorem InStep.ensures {pre : Goal → State → Prop}
    {one : (goal : Goal) → State → Except Stop (Result goal) → State → Prop}
    {left : Except Stop α → State → Prop} {right : Except Stop α' → State → Prop}
    (inStep : tree.InStep allowed (fun goal s goal' s' r t r' t' =>
      spec goal s goal' s' r t r' t' ∧ one goal s r t ∧ one goal' s' r' t') tree' post)
    (ensuresLeft : tree.Ensures pre (fun goal s _ => one goal s) fun _ => left)
    (ensuresRight : tree'.Ensures pre (fun goal s _ => one goal s) fun _ => right) :
    tree.InStep (fun goal s goal' s' => allowed goal s goal' s' ∧ pre goal s ∧ pre goal' s')
      (fun goal s goal' s' r t r' t' => spec goal s goal' s' r t r' t' ∧ one goal s r t ∧ one goal' s' r' t') tree'
      fun r t r' t' => post r t r' t' ∧ left r t ∧ right r' t' := by
  induction tree generalizing tree' with
  | done r s =>
    cases tree' with
    | done r' s' => exact ⟨inStep, ensuresLeft, ensuresRight⟩
    | call => exact inStep.elim
  | call goal s resume ih =>
    cases tree' with
    | done => exact inStep.elim
    | call goal' s' resume' =>
      refine ⟨⟨inStep.1, ensuresLeft.1, ensuresRight.1⟩, fun r t r' t' met => ?_⟩
      exact ih r t (inStep.2 r t r' t' met) (ensuresLeft.2 0 r t met.2.1) (ensuresRight.2 0 r' t' met.2.2)

theorem InStep.symm (h : tree.InStep allowed spec tree' post) :
    tree'.InStep (fun goal s goal' s' => allowed goal' s' goal s)
      (fun goal s goal' s' r t r' t' => spec goal' s' goal s r' t' r t) tree fun r t r' t' => post r' t' r t := by
  induction tree generalizing tree' with
  | done r s =>
    cases tree' with
    | done r' s' => exact h
    | call => exact h
  | call goal s resume ih =>
    cases tree' with
    | done => exact h
    | call goal' s' resume' => exact ⟨h.1, fun r t r' t' met => ih r' t' (h.2 r' t' r t met)⟩

section Adequacy

variable {body body' : (goal : Goal) → Routine Result State Stop (Result goal)}

/-- If the routines of goals that belong together are in step, then where one tree has an outcome the other has one
that belongs to it, after as many calls. -/
theorem InStep.exists_returnsIn (meets : ∀ goal s goal' s', allowed goal s goal' s' →
      (body goal s).InStep allowed spec (body' goal' s') (spec goal s goal' s'))
    {n : Nat} {r : Except Stop α} {t : State} (inStep : tree.InStep allowed spec tree' post)
    (h : ReturnsIn body n tree r t) : ∃ r' t', ReturnsIn body' n tree' r' t' ∧ post r t r' t' := by
  induction h generalizing α' with
  | done r t =>
    cases tree' with
    | done r' t' => exact ⟨r', t', .done r' t', inStep⟩
    | call => exact inStep.elim
  | call _ _ first second =>
    cases tree' with
    | done => exact inStep.elim
    | call goal' s' resume' =>
      obtain ⟨r₁, t₁, returns, met⟩ := first (meets _ _ _ _ inStep.1)
      obtain ⟨r₂, t₂, returns', met'⟩ := second (inStep.2 _ _ _ _ met)
      exact ⟨r₂, t₂, .call returns returns', met'⟩

/-- `InStep.exists_returnsIn` where calls are not counted. -/
theorem InStep.exists_returns (meets : ∀ goal s goal' s', allowed goal s goal' s' →
      (body goal s).InStep allowed spec (body' goal' s') (spec goal s goal' s'))
    {r : Except Stop α} {t : State} (inStep : tree.InStep allowed spec tree' post) (h : Returns body tree r t) :
    ∃ r' t', Returns body' tree' r' t' ∧ post r t r' t' := by
  obtain ⟨n, h⟩ := h.exists_returnsIn
  obtain ⟨r', t', returns, ends⟩ := inStep.exists_returnsIn meets h
  exact ⟨r', t', returns.returns, ends⟩

/-- `InStep.exists_returns` where the trees need to be in step only as long as the first run is good: as all its calls
are started and ended in good states, no other calls have to be thought of. -/
theorem InStep.exists_returns_of_traces {good : State → Prop}
    (meets : ∀ goal s goal' s', good s → allowed goal s goal' s' →
      (body goal s).InStep (fun goal s goal' s' => good s → allowed goal s goal' s')
        (fun goal s goal' s' r t r' t' => good t ∧ spec goal s goal' s' r t r' t') (body' goal' s')
        (spec goal s goal' s'))
    {trace : List (Ended Result State Stop)} {r : Except Stop α} {t : State}
    (inStep : tree.InStep (fun goal s goal' s' => good s → allowed goal s goal' s')
      (fun goal s goal' s' r t r' t' => good t ∧ spec goal s goal' s' r t r' t') tree' post)
    (h : Traces body trace tree r t) (goods : ∀ x ∈ trace, good x.start ∧ good x.state) :
    ∃ r' t', Returns body' tree' r' t' ∧ post r t r' t' := by
  induction h generalizing α' with
  | done r t =>
    cases tree' with
    | done r' t' => exact ⟨r', t', .done r' t', inStep⟩
    | call => exact inStep.elim
  | call _ _ first second =>
    cases tree' with
    | done => exact inStep.elim
    | call goal' s' resume' =>
      obtain ⟨inside, call, later⟩ := List.forall_mem_append.1 goods |>.imp_right List.forall_mem_cons.1
      obtain ⟨r₁, t₁, returns, met⟩ := first (meets _ _ _ _ call.1 (inStep.1 call.1)) inside
      obtain ⟨r₂, t₂, returns', met'⟩ := second (inStep.2 _ _ _ _ ⟨call.2, met⟩) later
      exact ⟨r₂, t₂, .call returns returns', met'⟩

/-- Runs with the same budget find outcomes that belong together, or both find none. -/
theorem InStep.run_related (meets : ∀ goal s goal' s', allowed goal s goal' s' →
      (body goal s).InStep allowed spec (body' goal' s') (spec goal s goal' s'))
    (inStep : tree.InStep allowed spec tree' post) (budget : Nat) :
    Option.Rel (fun x y => post x.1 x.2 y.1 y.2) (run body budget tree) (run body' budget tree') := by
  cases found : run body budget tree with
  | some x =>
    obtain ⟨n, le, returns⟩ := run_eq_some_iff.1 found
    obtain ⟨r', t', returns', ends⟩ := inStep.exists_returnsIn meets returns
    rw [returns'.run_eq le]
    exact .some ends
  | none => cases found' : run body' budget tree' with
    | none => exact .none
    | some y =>
      obtain ⟨n, le, returns'⟩ := run_eq_some_iff.1 found'
      obtain ⟨r, t, returns, _⟩ :=
        inStep.symm.exists_returnsIn (fun goal' s' goal s h => (meets goal s goal' s' h).symm) returns'
      rw [returns.run_eq le] at found
      cases found

end Adequacy

end CallTree

end Monkey
