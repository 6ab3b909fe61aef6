namespace Monkey

/-- What a routine does from one state: it is done, or it calls a goal and waits for the outcome. -/
inductive CallTree {Goal : Type} (Result : Goal → Type) (State Stop Value : Type) where
  | done (outcome : Except Stop Value) (state : State)
  | call (goal : Goal) (state : State)
      (resume : Except Stop (Result goal) → State → CallTree Result State Stop Value)

/-- A procedure that starts in any state. -/
def Routine {Goal : Type} (Result : Goal → Type) (State Stop Value : Type) :=
  State → CallTree Result State Stop Value

namespace CallTree

variable {Goal : Type} {Result : Goal → Type} {State Stop α β : Type}

/-- Goes on with `next` after a value; a stop skips it. -/
def andThen (next : α → State → CallTree Result State Stop β) :
    CallTree Result State Stop α → CallTree Result State Stop β
  | .done (.ok a) s => next a s
  | .done (.error e) s => .done (.error e) s
  | .call goal s resume => .call goal s fun r s' => (resume r s').andThen next

@[simp] theorem done_ok_andThen (next : α → State → CallTree Result State Stop β) (a : α) (s : State) :
    (CallTree.done (.ok a) s).andThen next = next a s := rfl

@[simp] theorem done_error_andThen (next : α → State → CallTree Result State Stop β) (e : Stop) (s : State) :
    (CallTree.done (.error e) s).andThen next = .done (.error e) s := rfl

@[simp] theorem call_andThen (next : α → State → CallTree Result State Stop β) (goal : Goal) (s : State)
    (resume : Except Stop (Result goal) → State → CallTree Result State Stop α) :
    (CallTree.call goal s resume).andThen next = .call goal s fun r s' => (resume r s').andThen next := rfl

theorem andThen_done (tree : CallTree Result State Stop α) :
    (tree.andThen fun a s => .done (.ok a) s) = tree := by
  induction tree with
  | done r s => cases r <;> rfl
  | call goal s resume ih => simp only [call_andThen, ih]

theorem andThen_assoc {γ : Type} (tree : CallTree Result State Stop α)
    (next : α → State → CallTree Result State Stop β) (last : β → State → CallTree Result State Stop γ) :
    (tree.andThen next).andThen last = tree.andThen fun a s => (next a s).andThen last := by
  induction tree with
  | done r s => cases r <;> rfl
  | call goal s resume ih => simp only [call_andThen, ih]

/-- Turns the outcome, a stop included, into a value. -/
def observe : CallTree Result State Stop α → CallTree Result State Stop (Except Stop α)
  | .done r s => .done (.ok r) s
  | .call goal s resume => .call goal s fun r s' => (resume r s').observe

end CallTree

namespace Routine

variable {Goal : Type} {Result : Goal → Type} {State Stop α β : Type}

@[inline] protected def pure (a : α) : Routine Result State Stop α := fun s => .done (.ok a) s

@[inline] protected def bind (m : Routine Result State Stop α) (f : α → Routine Result State Stop β) :
    Routine Result State Stop β :=
  fun s => (m s).andThen f

instance : Monad (Routine Result State Stop) where
  pure := Routine.pure
  bind := Routine.bind

instance : LawfulMonad (Routine Result State Stop) :=
  LawfulMonad.mk' _ (fun m => funext fun s => CallTree.andThen_done (m s)) (fun _ _ => rfl)
    fun m f g => funext fun s => CallTree.andThen_assoc (m s) f g

/-- Has the goal reached, and stops if that stops. -/
@[inline] def call (goal : Goal) : Routine Result State Stop (Result goal) :=
  fun s => .call goal s .done

@[inline] def stop (e : Stop) : Routine Result State Stop α := fun s => .done (.error e) s

/-- Goes on also after a stop, which is then a value. -/
@[inline] def attempt (m : Routine Result State Stop α) : Routine Result State Stop (Except Stop α) :=
  fun s => (m s).observe

@[inline] def ofExcept (r : Except Stop α) : Routine Result State Stop α := fun s => .done r s

@[inline] def get : Routine Result State Stop State := fun s => .done (.ok s) s

@[inline] def modify (f : State → State) : Routine Result State Stop Unit := fun s => .done (.ok ()) (f s)

@[inline] def modifyGet (f : State → α × State) : Routine Result State Stop α :=
  fun s => match f s with
    | (a, s') => .done (.ok a) s'

@[simp] theorem pure_apply (a : α) (s : State) :
    (Pure.pure a : Routine Result State Stop α) s = .done (.ok a) s := rfl

@[simp] theorem bind_apply (m : Routine Result State Stop α) (f : α → Routine Result State Stop β)
    (s : State) : (m >>= f) s = (m s).andThen f := rfl

@[simp] theorem call_apply (goal : Goal) (s : State) :
    (call goal : Routine Result State Stop _) s = .call goal s .done := rfl

@[simp] theorem stop_apply (e : Stop) (s : State) :
    (stop e : Routine Result State Stop α) s = .done (.error e) s := rfl

@[simp] theorem attempt_apply (m : Routine Result State Stop α) (s : State) :
    m.attempt s = (m s).observe := rfl

@[simp] theorem ofExcept_apply (r : Except Stop α) (s : State) :
    (ofExcept r : Routine Result State Stop α) s = .done r s := rfl

@[simp] theorem get_apply (s : State) : (get : Routine Result State Stop State) s = .done (.ok s) s := rfl

@[simp] theorem modify_apply (f : State → State) (s : State) :
    (modify f : Routine Result State Stop Unit) s = .done (.ok ()) (f s) := rfl

@[simp] theorem modifyGet_apply (f : State → α × State) (s : State) :
    (modifyGet f : Routine Result State Stop α) s = .done (.ok (f s).1) (f s).2 := rfl

end Routine

namespace CallTree

variable {Goal : Type} {Result : Goal → Type} {State Stop : Type}

/-- The outcome and last state of a call tree when every goal is reached by its routine in `body`. -/
inductive Returns (body : (goal : Goal) → Routine Result State Stop (Result goal)) :
    {α : Type} → CallTree Result State Stop α → Except Stop α → State → Prop
  | done {α : Type} (r : Except Stop α) (s : State) : Returns body (.done r s) r s
  | call {α : Type} {goal : Goal} {s s' t : State} {r : Except Stop (Result goal)} {out : Except Stop α}
      {resume : Except Stop (Result goal) → State → CallTree Result State Stop α} :
      Returns body (body goal s) r s' → Returns body (resume r s') out t →
      Returns body (.call goal s resume) out t

section Inversion

variable {body : (goal : Goal) → Routine Result State Stop (Result goal)} {α β : Type}

theorem returns_done_iff {r out : Except Stop α} {s t : State} :
    Returns body (.done r s) out t ↔ out = r ∧ t = s := by
  constructor
  · intro h
    cases h
    exact ⟨rfl, rfl⟩
  · rintro ⟨rfl, rfl⟩
    exact .done _ _

theorem returns_call_iff {goal : Goal} {s t : State} {out : Except Stop α}
    {resume : Except Stop (Result goal) → State → CallTree Result State Stop α} :
    Returns body (.call goal s resume) out t ↔
      ∃ r s', Returns body (body goal s) r s' ∧ Returns body (resume r s') out t := by
  constructor
  · intro h
    cases h with
    | call first second => exact ⟨_, _, first, second⟩
  · rintro ⟨r, s', first, second⟩
    exact .call first second

/-- A tree goes on after a value and nowhere else. -/
theorem returns_andThen_iff {tree : CallTree Result State Stop α}
    {next : α → State → CallTree Result State Stop β} {out : Except Stop β} {t : State} :
    Returns body (tree.andThen next) out t ↔
      (∃ a s, Returns body tree (.ok a) s ∧ Returns body (next a s) out t) ∨
        ∃ e, Returns body tree (.error e) t ∧ out = .error e := by
  induction tree with
  | done r s =>
    cases r with
    | ok a => simp only [done_ok_andThen, returns_done_iff]; grind
    | error e => simp only [done_error_andThen, returns_done_iff]; grind
  | call goal s resume ih =>
    simp only [call_andThen, returns_call_iff, ih]
    constructor
    · rintro ⟨r, s', first, ⟨a, u, second, third⟩ | ⟨e, second, same⟩⟩
      · exact Or.inl ⟨a, u, ⟨r, s', first, second⟩, third⟩
      · exact Or.inr ⟨e, ⟨r, s', first, second⟩, same⟩
    · rintro (⟨a, u, ⟨r, s', first, second⟩, third⟩ | ⟨e, ⟨r, s', first, second⟩, same⟩)
      · exact ⟨r, s', first, Or.inl ⟨a, u, second, third⟩⟩
      · exact ⟨r, s', first, Or.inr ⟨e, second, same⟩⟩

/-- What is observed of a tree is its outcome. -/
theorem returns_observe_iff {tree : CallTree Result State Stop α} {out : Except Stop (Except Stop α)}
    {t : State} : Returns body tree.observe out t ↔ ∃ r, Returns body tree r t ∧ out = .ok r := by
  induction tree with
  | done r s => simp only [observe, returns_done_iff]; grind
  | call goal s resume ih => simp only [observe, returns_call_iff, ih]; grind

end Inversion

/-- The calls that wait, innermost first: what is left to do from an outcome in `α` to one in `γ`. -/
inductive Frames (Result : Goal → Type) (State Stop : Type) : Type → Type → Type 1 where
  | nil {α : Type} : Frames Result State Stop α α
  | push {α β γ : Type} (resume : Except Stop α → State → CallTree Result State Stop β)
      (rest : Frames Result State Stop β γ) : Frames Result State Stop α γ

/-- Where a run stands between two calls. -/
inductive Progress (Result : Goal → Type) (State Stop γ : Type) : Type 1 where
  | finished (outcome : Except Stop γ) (state : State)
  | pending (goal : Goal) (state : State) (frames : Frames Result State Stop (Result goal) γ)

/-- Hands an outcome to the waiting calls until one of them calls again. -/
def unwind {γ : Type} : {α : Type} → Frames Result State Stop α γ → Except Stop α → State →
    Progress Result State Stop γ
  | _, .nil, r, s => .finished r s
  | _, .push resume rest, r, s =>
    match resume r s with
    | .done r' s' => unwind rest r' s'
    | .call goal s' resume' => .pending goal s' (.push resume' rest)

/-- Follows a call tree up to its next call. -/
def advance {α γ : Type} (tree : CallTree Result State Stop α) (frames : Frames Result State Stop α γ) :
    Progress Result State Stop γ :=
  match tree with
  | .done r s => unwind frames r s
  | .call goal s resume => .pending goal s (.push resume frames)

/-- Goes on for at most `budget` calls. -/
def proceed (body : (goal : Goal) → Routine Result State Stop (Result goal)) {γ : Type} :
    (budget : Nat) → Progress Result State Stop γ → Option (Except Stop γ × State)
  | _, .finished r s => some (r, s)
  | 0, .pending .. => none
  | budget + 1, .pending goal s frames => proceed body budget (advance (body goal s) frames)

/-- The outcome of a call tree if at most `budget` calls lead to it. -/
def run (body : (goal : Goal) → Routine Result State Stop (Result goal)) {α : Type} (budget : Nat)
    (tree : CallTree Result State Stop α) : Option (Except Stop α × State) :=
  proceed body budget (advance tree .nil)

theorem unwind_push {α β γ : Type} (resume : Except Stop α → State → CallTree Result State Stop β)
    (rest : Frames Result State Stop β γ) (r : Except Stop α) (s : State) :
    unwind (.push resume rest) r s = advance (resume r s) rest := by
  unfold unwind advance
  split <;> rfl

variable {body : (goal : Goal) → Routine Result State Stop (Result goal)}

theorem proceed_mono {γ : Type} {n m : Nat} (le : n ≤ m) {p : Progress Result State Stop γ}
    {x : Except Stop γ × State} (h : proceed body n p = some x) : proceed body m p = some x := by
  induction n generalizing m p with
  | zero => cases p with
    | finished => simpa only [proceed] using h
    | pending => simp [proceed] at h
  | succ n ih => cases p with
    | finished => simpa only [proceed] using h
    | pending goal s frames =>
      obtain ⟨m, rfl⟩ : ∃ k, m = k + 1 := ⟨m - 1, by omega⟩
      simp only [proceed] at h ⊢
      exact ih (by omega) h

/-- A larger budget keeps the answer of a run. -/
theorem run_mono {α : Type} {n m : Nat} (le : n ≤ m) {tree : CallTree Result State Stop α}
    {x : Except Stop α × State} (h : run body n tree = some x) : run body m tree = some x :=
  proceed_mono le h

/-- The waiting calls take the outcome `r` to the outcome `out`. -/
def Frames.Deliver (body : (goal : Goal) → Routine Result State Stop (Result goal)) {γ : Type} :
    {α : Type} → Frames Result State Stop α γ → Except Stop α → State → Except Stop γ → State → Prop
  | _, .nil, r, s, out, t => r = out ∧ s = t
  | _, .push resume rest, r, s, out, t =>
    ∃ r' s', Returns body (resume r s) r' s' ∧ rest.Deliver body r' s' out t

/-- A run that stands here ends with `out`. -/
def Progress.Ends (body : (goal : Goal) → Routine Result State Stop (Result goal)) {γ : Type} :
    Progress Result State Stop γ → Except Stop γ → State → Prop
  | .finished r s, out, t => r = out ∧ s = t
  | .pending goal s frames, out, t =>
    ∃ r s', Returns body (body goal s) r s' ∧ frames.Deliver body r s' out t

theorem Frames.deliver_of_ends_unwind {α γ : Type} {frames : Frames Result State Stop α γ}
    {r : Except Stop α} {s : State} {out : Except Stop γ} {t : State}
    (h : (unwind frames r s).Ends body out t) : frames.Deliver body r s out t := by
  induction frames generalizing s with
  | nil => exact h
  | push resume rest ih =>
    unfold unwind at h
    split at h
    · next r' s' eq => exact ⟨r', s', eq ▸ .done r' s', ih h⟩
    · next goal s' resume' eq =>
      obtain ⟨r₁, s₁, first, r₂, s₂, second, later⟩ := h
      exact ⟨r₂, s₂, eq ▸ .call first second, later⟩

theorem deliver_of_ends_advance {α γ : Type} {tree : CallTree Result State Stop α}
    {frames : Frames Result State Stop α γ} {out : Except Stop γ} {t : State}
    (h : (advance tree frames).Ends body out t) :
    ∃ r s, Returns body tree r s ∧ frames.Deliver body r s out t := by
  cases tree with
  | done r s => exact ⟨r, s, .done r s, Frames.deliver_of_ends_unwind h⟩
  | call goal s resume =>
    obtain ⟨r₁, s₁, first, r₂, s₂, second, later⟩ := h
    exact ⟨r₂, s₂, .call first second, later⟩

theorem ends_of_proceed {γ : Type} {n : Nat} {p : Progress Result State Stop γ}
    {out : Except Stop γ} {t : State} (h : proceed body n p = some (out, t)) : p.Ends body out t := by
  induction n generalizing p with
  | zero => cases p with
    | finished => simpa [proceed, Progress.Ends] using h
    | pending => simp [proceed] at h
  | succ n ih => cases p with
    | finished => simpa [proceed, Progress.Ends] using h
    | pending goal s frames => exact deliver_of_ends_advance (ih h)

theorem exists_proceed_of_returns {α γ : Type} {tree : CallTree Result State Stop α} {r : Except Stop α}
    {s : State} (returns : Returns body tree r s) (frames : Frames Result State Stop α γ)
    {x : Except Stop γ × State} (h : ∃ n, proceed body n (unwind frames r s) = some x) :
    ∃ n, proceed body n (advance tree frames) = some x := by
  induction returns with
  | done => exact h
  | call _ _ first second =>
    obtain ⟨n, run⟩ := first (.push _ frames) (by rw [unwind_push]; exact second frames h)
    exact ⟨n + 1, run⟩

/-- A run finds an outcome exactly when the call tree has it. -/
theorem exists_run_iff_returns {α : Type} {tree : CallTree Result State Stop α} {out : Except Stop α}
    {t : State} : (∃ n, run body n tree = some (out, t)) ↔ Returns body tree out t := by
  constructor
  · rintro ⟨n, run⟩
    obtain ⟨r, s, returns, rfl, rfl⟩ := deliver_of_ends_advance (ends_of_proceed run)
    exact returns
  · exact fun returns => exists_proceed_of_returns returns .nil ⟨0, rfl⟩

/-- A call tree has one outcome. -/
theorem Returns.unique {α : Type} {tree : CallTree Result State Stop α} {r r' : Except Stop α} {s s' : State}
    (h : Returns body tree r s) (h' : Returns body tree r' s') : r = r' ∧ s = s' := by
  obtain ⟨n, run⟩ := exists_run_iff_returns.2 h
  obtain ⟨m, run'⟩ := exists_run_iff_returns.2 h'
  have both := (run_mono (Nat.le_max_left n m) run).symm.trans (run_mono (Nat.le_max_right n m) run')
  simpa using both

end CallTree

end Monkey
