import Monkey.Proofs.Ensures

namespace Monkey

namespace CallTree

variable {Goal : Type} {Result : Goal → Type} {State Stop α β : Type}

/-- What waits for an outcome hands a stop on as it is. -/
def HandsOn (resume : Except Stop α → State → CallTree Result State Stop β) : Prop :=
  ∀ e s, resume (.error e) s = .done (.error e) s

/-- While the call tree is followed, `goal` is called in the state `s`, and what then waits hands a stop on. -/
inductive Exposes (body : (goal : Goal) → Routine Result State Stop (Result goal)) :
    {α : Type} → CallTree Result State Stop α → Goal → State → Prop
  | here {α : Type} {goal : Goal} {s : State}
      {resume : Except Stop (Result goal) → State → CallTree Result State Stop α} :
      HandsOn resume → Exposes body (.call goal s resume) goal s
  | inside {α : Type} {goal goal' : Goal} {s t : State}
      {resume : Except Stop (Result goal) → State → CallTree Result State Stop α} :
      HandsOn resume → Exposes body (body goal s) goal' t → Exposes body (.call goal s resume) goal' t
  | after {α : Type} {goal goal' : Goal} {s s' t : State} {r : Except Stop (Result goal)}
      {resume : Except Stop (Result goal) → State → CallTree Result State Stop α} :
      Returns body (body goal s) r s' → Exposes body (resume r s') goal' t →
      Exposes body (.call goal s resume) goal' t

section Exposes

variable {body : (goal : Goal) → Routine Result State Stop (Result goal)}

theorem HandsOn.andThen {resume : Except Stop α → State → CallTree Result State Stop β} {γ : Type}
    (h : HandsOn resume) (next : β → State → CallTree Result State Stop γ) :
    HandsOn fun r s => (resume r s).andThen next := by
  intro e s
  dsimp only
  rw [h e s, done_error_andThen]

theorem exposes_call (goal : Goal) (s : State) :
    Exposes body ((Routine.call goal : Routine Result State Stop _) s) goal s :=
  .here fun _ _ => rfl

theorem Exposes.called {goal goal' : Goal} {s t : State} (h : Exposes body (body goal s) goal' t) :
    Exposes body ((Routine.call goal : Routine Result State Stop _) s) goal' t :=
  .inside (fun _ _ => rfl) h

theorem Exposes.andThen {tree : CallTree Result State Stop α} {goal : Goal} {t : State} (h : Exposes body tree goal t)
    (next : α → State → CallTree Result State Stop β) : Exposes body (tree.andThen next) goal t := by
  induction h with
  | here hands => exact .here (hands.andThen next)
  | inside hands inner => exact .inside (hands.andThen next) inner
  | after returns _ ih => exact .after returns (ih next)

theorem Exposes.andThen_of_returns {tree : CallTree Result State Stop α}
    {next : α → State → CallTree Result State Stop β} {a : α} {s t : State} {goal : Goal}
    (first : Returns body tree (.ok a) s) (h : Exposes body (next a s) goal t) :
    Exposes body (tree.andThen next) goal t := by
  generalize value : Except.ok a = r at first
  induction first with
  | done r s =>
    subst value
    exact h
  | call inner _ _ second => exact .after inner (second h value)

theorem Progress.after_add {γ : Type} (n m : Nat) (p : Progress Result State Stop γ) :
    p.after body (n + m) = (p.after body n).after body m := by
  induction n generalizing p with
  | zero => rw [Nat.zero_add]; rfl
  | succ n ih =>
    rw [Nat.add_right_comm]
    cases p with
    | finished r s => cases m <;> rfl
    | pending goal s frames => exact ih _

theorem ReturnsIn.after_eq {γ : Type} {n : Nat} {tree : CallTree Result State Stop α} {r : Except Stop α} {s : State}
    (h : ReturnsIn body n tree r s) (frames : Frames Result State Stop α γ) :
    (advance tree frames).after body n = unwind frames r s := by
  induction h with
  | done r s => rfl
  | @call α goal n m s s' t r out resume _ _ first second =>
    rw [Nat.add_right_comm]
    change (advance (body goal s) (.push resume frames)).after body (n + m) = _
    rw [Progress.after_add, first, unwind_push, second]

/-- The run makes some calls, then this one, and if the call stops, no other: the tree stops with it. -/
theorem Exposes.exists_returnsIn {tree : CallTree Result State Stop α} {goal : Goal} {t : State}
    (h : Exposes body tree goal t) :
    ∃ n, (∀ {γ : Type} (waiting : Frames Result State Stop α γ),
        ∃ frames, (advance tree waiting).after body n = .pending goal t frames) ∧
      ∀ m e u, ReturnsIn body m (body goal t) (.error e) u → ReturnsIn body (n + 1 + m) tree (.error e) u := by
  induction h with
  | @here α goal s resume hands =>
    refine ⟨0, fun waiting => ⟨.push resume waiting, rfl⟩, fun m e u stops => ?_⟩
    have ends : ReturnsIn body 0 (resume (.error e) u) (.error e) u := hands e u ▸ .done _ u
    have count : m + 1 + 0 = 0 + 1 + m := by omega
    exact count ▸ ReturnsIn.call stops ends
  | @inside α goal goal' s t resume hands _ ih =>
    obtain ⟨n, comes, ends⟩ := ih
    refine ⟨n + 1, fun waiting => comes (.push resume waiting), fun m e u stops => ?_⟩
    have last : ReturnsIn body 0 (resume (.error e) u) (.error e) u := hands e u ▸ .done _ u
    have count : n + 1 + m + 1 + 0 = n + 1 + 1 + m := by omega
    exact count ▸ ReturnsIn.call (ends m e u stops) last
  | @after α goal goal' s s' t r resume returns _ ih =>
    obtain ⟨n, comes, ends⟩ := ih
    obtain ⟨k, returns⟩ := returns.exists_returnsIn
    refine ⟨k + 1 + n, fun waiting => ?_, fun m e u stops => ?_⟩
    · obtain ⟨frames, pending⟩ := comes waiting
      have returns' := returns.after_eq (.push resume waiting)
      refine ⟨frames, ?_⟩
      rw [Nat.add_right_comm]
      change (advance (body goal s) (.push resume waiting)).after body (k + n) = _
      rw [Progress.after_add, returns', unwind_push, pending]
    · have count : k + 1 + (n + 1 + m) = k + 1 + n + 1 + m := by omega
      exact count ▸ ReturnsIn.call returns (ends m e u stops)

end Exposes

/-- Wherever the call tree waits, a stop of the kind ends it, and the state changes as `Change` says. -/
def Strict (kind : Stop → Prop) (Change : State → State → Prop) : CallTree Result State Stop α → Prop
  | .done .. => True
  | .call _ _ resume =>
    (∀ e s, kind e → ∃ s', resume (.error e) s = .done (.error e) s' ∧ Change s s') ∧
      ∀ r s, (resume r s).Strict kind Change

section Strict

variable {body : (goal : Goal) → Routine Result State Stop (Result goal)} {kind : Stop → Prop}
  {Change : State → State → Prop}

theorem Strict.andThen {tree : CallTree Result State Stop α} {next : α → State → CallTree Result State Stop β}
    (h : tree.Strict kind Change) (rest : ∀ a s, (next a s).Strict kind Change) :
    (tree.andThen next).Strict kind Change := by
  induction tree with
  | done r s =>
    cases r with
    | ok a => exact rest a s
    | error e => trivial
  | call goal s resume ih =>
    refine ⟨fun e t stops => ?_, fun r t => ih r t (h.2 r t)⟩
    obtain ⟨t', ends, change⟩ := h.1 e t stops
    refine ⟨t', ?_, change⟩
    dsimp only
    rw [ends, done_error_andThen]

/-- Wherever it is raised, a stop that no tree catches ends the tree. -/
theorem Visits.stops (strict : ∀ goal s, (body goal s).Strict kind Change)
    (join : ∀ {s t u}, Change s t → Change t u → Change s u) {tree : CallTree Result State Stop α} {goal : Goal}
    {s t : State} {e : Stop} (h : Visits body tree goal s) (tight : tree.Strict kind Change) (stops : kind e)
    (raised : Returns body (body goal s) (.error e) t) : ∃ u, Returns body tree (.error e) u ∧ Change t u := by
  induction h with
  | @here α goal s resume =>
    obtain ⟨u, ends, change⟩ := tight.1 e t stops
    exact ⟨u, .call raised (ends ▸ .done _ u), change⟩
  | @inside α goal goal' s s' resume _ ih =>
    obtain ⟨u, returns, change⟩ := ih (strict goal s) raised
    obtain ⟨w, ends, change'⟩ := tight.1 e u stops
    exact ⟨w, .call returns (ends ▸ .done _ w), join change change'⟩
  | @after α goal goal' s s' u r resume returns _ ih =>
    obtain ⟨w, ends, change⟩ := ih (tight.2 r s') raised
    exact ⟨w, .call returns ends, change⟩

end Strict

end CallTree

end Monkey
